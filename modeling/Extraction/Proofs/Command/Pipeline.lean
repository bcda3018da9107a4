import Extraction.Command.Run
import Extraction.Proofs.Config
import Extraction.Proofs.Json.ReadBack
import Extraction.Proofs.Transition.Seek
import Extraction.Proofs.Transition.Stages
import Mathlib.Logic.ExistsUnique

/-!
# Extraction.Proofs.Command.Pipeline

The command as a pipeline of stages.

A run lists its transitions, loads its document and applies the ones to the other; only when
all of this has succeeded is anything printed, and the first stage that fails is the one that
is told.  The settings have a say in the printing alone:

* `InEffect`, `inEffect_iff` — the settings that a run goes by, whatever state their file is in;
* `Completes`, `FailsFirst` — what the stages have to answer for a run to succeed, or to fail
  with a certain error;
* `completes_or_failsFirst`, `result_of_completes`, `result_of_failsFirst` — each run is of one
  of the two kinds, and comes to what its kind says;
* `run_pipeline` — the exit code, the printed text and the error of every run.
-/

namespace Extraction.Command

open Document (Entries Value)
open Files (View)

/-! ## what a run shows -/

/-- The text that a run prints. -/
def Report.printed (r : Report) : String :=
  match r.result with
  | .ok text => text
  | .error _ => ""

/-- Why a run failed, unless it succeeded. -/
def Report.failure? (r : Report) : Option Error :=
  match r.result with
  | .ok _ => none
  | .error e => some e

/-! ## settings -/

/-- The settings that a run goes by: those of the file, and the default ones where there is
no file, or none that can be read and holds settings. -/
inductive InEffect (view : View) (home : String) : Config → Prop where
  | absent (h : view (Config.pathIn home) = .absent) : InEffect view home .default
  | directory (h : view (Config.pathIn home) = .directory) : InEffect view home .default
  | noText {bytes : ByteArray} (h : view (Config.pathIn home) = .file bytes)
      (htext : String.fromUTF8? bytes = none) : InEffect view home .default
  | invalid {bytes : ByteArray} {text : String} (h : view (Config.pathIn home) = .file bytes)
      (htext : String.fromUTF8? bytes = some text) (hread : Config.read? text = none) :
      InEffect view home .default
  | valid {bytes : ByteArray} {text : String} {config : Config}
      (h : view (Config.pathIn home) = .file bytes)
      (htext : String.fromUTF8? bytes = some text) (hread : Config.read? text = some config) :
      InEffect view home config

/-- The format that the file of the settings gives, if it holds settings with a format. -/
def formatGiven? (view : View) (home : String) : Option OutputFormat :=
  match view (Config.pathIn home) with
  | .file bytes => do
    let t ← Toml.read? (← String.fromUTF8? bytes)
    let _ ← Config.ofTable? t
    Config.formatOf? (← Entries.get? "output_format" t)
  | _ => none

variable {view : View} {home : String} {config : Config}

/-- The settings that are `InEffect` are those that `settings` answers. -/
theorem settings_of_inEffect {s : Surroundings} (h : InEffect s.view s.home config) :
    (settings s).1 = config := by
  cases h with
  | absent h => simp [settings, Config.load, Config.ofFound, h]
  | directory h => simp [settings, Config.load, Config.ofFound, h]
  | noText h htext => simp [settings, Config.load, Config.ofFound, h, htext]
  | invalid h htext hread => simp [settings, Config.load, Config.ofFound, h, htext, hread]
  | valid h htext hread => simp [settings, Config.load, Config.ofFound, h, htext, hread]

/-- In whatever state the file of the settings is, some settings are `InEffect`. -/
theorem exists_inEffect (view : View) (home : String) : ∃ config, InEffect view home config := by
  cases h : view (Config.pathIn home) with
  | absent => exact ⟨_, .absent h⟩
  | directory => exact ⟨_, .directory h⟩
  | file bytes =>
      cases htext : String.fromUTF8? bytes with
      | none => exact ⟨_, .noText h htext⟩
      | some text =>
          cases hread : Config.read? text with
          | none => exact ⟨_, .invalid h htext hread⟩
          | some config => exact ⟨config, .valid h htext hread⟩

/-- Settings that were saved are those that a run goes by. -/
theorem inEffect_of_saved (h : view (Config.pathIn home) = .file config.write.toUTF8) :
    InEffect view home config :=
  .valid h (Config.fromUTF8?_toUTF8 _) (Config.read?_write config)

/-- `InEffect` tells the settings of a run, and no others. -/
theorem inEffect_iff {s : Surroundings} :
    InEffect s.view s.home config ↔ (settings s).1 = config := by
  refine ⟨settings_of_inEffect, fun h => ?_⟩
  obtain ⟨config', h'⟩ := exists_inEffect s.view s.home
  exact h ▸ settings_of_inEffect h' ▸ h'

/-- A setting is what the table gives for it, else its default. -/
theorem eq_of_setting? {α : Type} {read : Toml.Value → Option α} {key : String} {fallback a : α}
    {t : List (String × Toml.Value)} (h : Config.setting? read key fallback t = some a) :
    a = ((Entries.get? key t).bind read).getD fallback := by
  rw [Config.setting?] at h
  split at h
  · next hget => simpa [hget] using h.symm
  · next v hget => simp [hget, h]

/-- The format that `Config.ofTable?` reads is the one under `output_format`, else JSON. -/
theorem outputFormat_of_ofTable? {t : List (String × Toml.Value)}
    (h : Config.ofTable? t = some config) :
    config.outputFormat = ((Entries.get? "output_format" t).bind Config.formatOf?).getD .json := by
  simp only [Config.ofTable?, Option.bind_eq_bind, Option.bind_eq_some_iff] at h
  obtain ⟨format, hformat, pretty, -, level, -, hconfig⟩ := h
  cases hconfig
  exact eq_of_setting? hformat

/-- The format of the settings is the one that their file gives, else JSON. -/
theorem outputFormat_of_inEffect (h : InEffect view home config) :
    config.outputFormat = (formatGiven? view home).getD .json := by
  cases h with
  | absent h => simp [formatGiven?, h, Config.default]
  | directory h => simp [formatGiven?, h, Config.default]
  | noText h htext => simp [formatGiven?, h, htext, Config.default]
  | @invalid _ text h htext hread =>
      cases htable : Toml.read? text with
      | none => simp [formatGiven?, h, htext, htable, Config.default]
      | some t =>
          have hsettings : Config.ofTable? t = none := by simpa [Config.read?, htable] using hread
          simp [formatGiven?, h, htext, htable, hsettings, Config.default]
  | valid h htext hread =>
      obtain ⟨t, htable, hsettings⟩ := Option.bind_eq_some_iff.1 hread
      rw [outputFormat_of_ofTable? hsettings]
      simp [formatGiven?, h, htext, htable, hsettings]

/-! ## files -/

/-- The text of a file that is not compressed is read as it is. -/
theorem readText_of_file {path text : String} (h : view path = .file text.toUTF8)
    (hpath : Files.isCompressed path = false) : Files.readText view path = .ok text := by
  have htext : Files.plainText? (view path) = some text := by
    rw [h, Files.plainText?, Config.fromUTF8?_toUTF8]
  simp [Files.readText, hpath, htext]

/-- A document is loaded if its path asks for JSON and its text is JSON. -/
theorem loadSource_of_read {path text : String} {v : Value}
    (hformat : Files.Format.ofPath path = .json) (htext : Files.readText view path = .ok text)
    (hread : Json.read text = .ok v) : Files.loadSource view path = .ok v := by
  simp [Files.loadSource, htext, hformat, Files.Format.read, hread, Except.mapError, bind,
    Except.bind]

/-- A list of transitions is loaded if its path asks for JSON and its text is a list. -/
theorem loadTransitions_of_read {path text : String} {items : List Value}
    (hformat : Files.Format.ofPath path = .json) (htext : Files.readText view path = .ok text)
    (hread : Json.read text = .ok (.array items)) :
    Files.loadTransitions view path = .ok items := by
  simp [Files.loadTransitions, htext, hformat, Files.Format.read, hread, Except.mapError, bind,
    Except.bind, pure, Except.pure]

/-! ## stages -/

variable {bytes : ByteArray} {o : Options}

/-- The entries of the transitions file; there are none if no file was given. -/
def listed (view : View) (o : Options) : Except Files.Error (List Value) :=
  match o.transitionsFile with
  | some path => Files.loadTransitions view path
  | none => .ok []

/-- Entries of a file, followed by the expressions among the arguments. -/
def given (o : Options) (entries : List Value) : List Value :=
  entries ++ o.transitions.map .string

/-- The document of the file, else of standard input. -/
def loaded (view : View) (bytes : ByteArray) (o : Options) : Except Files.Error Value :=
  match o.file with
  | some path => Files.loadSource view path
  | none => Files.loadInput bytes

/-- All stages of a run succeed, and come to certain values in the end. -/
inductive Completes (view : View) (bytes : ByteArray) (o : Options) :
    Transition.Applied → Prop where
  | mk {entries : List Value} {document : Value} {applied : Transition.Applied}
      (hlisted : listed view o = .ok entries) (hgiven : given o entries ≠ [])
      (hloaded : loaded view bytes o = .ok document)
      (happlied : (Transition.applyValues (given o entries) document).2 = .ok applied) :
      Completes view bytes o applied

/-- The first stage of a run that fails, and why. -/
inductive FailsFirst (view : View) (bytes : ByteArray) (o : Options) : Error → Prop where
  | transitionsFile {e : Files.Error} (hlisted : listed view o = .error e) :
      FailsFirst view bytes o (.files e)
  | noTransitions {entries : List Value} (hlisted : listed view o = .ok entries)
      (hgiven : given o entries = []) : FailsFirst view bytes o .noTransitions
  | source {entries : List Value} {e : Files.Error} (hlisted : listed view o = .ok entries)
      (hgiven : given o entries ≠ []) (hloaded : loaded view bytes o = .error e) :
      FailsFirst view bytes o (.files e)
  | construction {entries : List Value} {document : Value} {f : Transition.Failure}
      (hlisted : listed view o = .ok entries) (hgiven : given o entries ≠ [])
      (hloaded : loaded view bytes o = .ok document)
      (happlied : (Transition.applyValues (given o entries) document).2 = .error f) :
      FailsFirst view bytes o (.transitions f)

/-- A run `Completes`, or one of its stages `FailsFirst`. -/
theorem completes_or_failsFirst (view : View) (bytes : ByteArray) (o : Options) :
    (∃ applied, Completes view bytes o applied) ∨ ∃ e, FailsFirst view bytes o e := by
  cases hlisted : listed view o with
  | error e => exact .inr ⟨_, .transitionsFile hlisted⟩
  | ok entries =>
      by_cases hgiven : given o entries = []
      · exact .inr ⟨_, .noTransitions hlisted hgiven⟩
      · cases hloaded : loaded view bytes o with
        | error e => exact .inr ⟨_, .source hlisted hgiven hloaded⟩
        | ok document =>
            cases happlied : (Transition.applyValues (given o entries) document).2 with
            | error f => exact .inr ⟨_, .construction hlisted hgiven hloaded happlied⟩
            | ok applied => exact .inl ⟨applied, .mk hlisted hgiven hloaded happlied⟩

/-- The list of transitions is refused just if it is empty. -/
theorem refuse_nil (ts : List Value) :
    (match ts with
      | [] => throw .noTransitions
      | ts => return ts : Except Error (List Value)) =
      if ts = [] then .error .noTransitions else .ok ts := by
  cases ts <;> rfl

/-- Listing the transitions, with the errors of the command. -/
theorem transitions_eq (view : View) (o : Options) :
    transitions view o = match listed view o with
      | .error e => .error (.files e)
      | .ok entries =>
        if given o entries = [] then .error .noTransitions else .ok (given o entries) := by
  rw [transitions, listed]
  cases o.transitionsFile with
  | none => exact refuse_nil (given o [])
  | some path =>
      dsimp only
      cases Files.loadTransitions view path with
      | error e => rfl
      | ok entries => exact refuse_nil (given o entries)

/-- Loading the document, with the errors of the command. -/
theorem source_eq (view : View) (home : String) (bytes : ByteArray) (o : Options) :
    source ⟨view, home, some bytes⟩ o = (loaded view bytes o).mapError .files := by
  rw [source, loaded]
  cases o.file <;> rfl

/-- A run that `Completes` prints its results by the settings in effect. -/
theorem result_of_completes {applied : Transition.Applied} (h : Completes view bytes o applied)
    (hconfig : InEffect view home config) :
    (run ⟨view, home, some bytes⟩ o).result = .ok (output o config applied.results) := by
  obtain ⟨hlisted, hgiven, hloaded, happlied⟩ := h
  have hsettings : (settings ⟨view, home, some bytes⟩).1 = config := inEffect_iff.1 hconfig
  simp [run, collect, transitions_eq, source_eq, hlisted, hgiven, hloaded, happlied, hsettings,
    Except.map, Except.mapError]

/-- A run comes to the error of the stage that `FailsFirst`. -/
theorem result_of_failsFirst {e : Error} (h : FailsFirst view bytes o e) :
    (run ⟨view, home, some bytes⟩ o).result = .error e := by
  cases h with
  | transitionsFile hlisted => simp [run, collect, transitions_eq, hlisted, Except.map]
  | noTransitions hlisted hgiven =>
      simp [run, collect, transitions_eq, hlisted, hgiven, Except.map]
  | source hlisted hgiven hloaded =>
      simp [run, collect, transitions_eq, source_eq, hlisted, hgiven, hloaded, Except.map,
        Except.mapError]
  | construction hlisted hgiven hloaded happlied =>
      simp [run, collect, transitions_eq, source_eq, hlisted, hgiven, hloaded, happlied,
        Except.map, Except.mapError]

theorem failure?_of_failsFirst {e : Error} (h : FailsFirst view bytes o e) :
    (run ⟨view, home, some bytes⟩ o).failure? = some e := by
  rw [Report.failure?, result_of_failsFirst h]

/-- **Pipeline**: a run exits with 0 just if all its stages succeed.  It then prints what was
collected, in the format of the arguments, else that of the settings, else as JSON, on several
lines just if the settings ask for it and the arguments do not forbid it.  Else it exits with 1,
prints nothing, and tells the first stage that fails.  There always are settings to go by. -/
theorem run_pipeline (view : View) (home : String) (bytes : ByteArray) (o : Options) :
    ((run ⟨view, home, some bytes⟩ o).code = 0 ↔ ∃ applied, Completes view bytes o applied) ∧
    (∃! config, InEffect view home config) ∧
    (∀ applied config, Completes view bytes o applied → InEffect view home config →
      (run ⟨view, home, some bytes⟩ o).failure? = none ∧
      (run ⟨view, home, some bytes⟩ o).printed =
        render ((o.format.or (formatGiven? view home)).getD .json) (config.pretty && !o.compact)
          applied.results) ∧
    ((¬ ∃ applied, Completes view bytes o applied) →
      (run ⟨view, home, some bytes⟩ o).code = 1 ∧
      (run ⟨view, home, some bytes⟩ o).printed = "" ∧
      ∃ e, (run ⟨view, home, some bytes⟩ o).failure? = some e) ∧
    ∀ e, (run ⟨view, home, some bytes⟩ o).failure? = some e ↔ FailsFirst view bytes o e := by
  obtain ⟨config, hconfig⟩ := exists_inEffect view home
  have hsuccess : ∀ applied, Completes view bytes o applied →
      (run ⟨view, home, some bytes⟩ o).result = .ok (output o config applied.results) :=
    fun applied h => result_of_completes h hconfig
  have hunique : ∀ config', InEffect view home config' → config' = config := fun config' h' =>
    (inEffect_iff (s := ⟨view, home, some bytes⟩)).1 h' ▸ inEffect_iff.1 hconfig
  refine ⟨⟨fun hcode => ?_, fun ⟨applied, h⟩ => ?_⟩, ⟨config, hconfig, hunique⟩,
    fun applied config' h hconfig' => ?_, fun hnone => ?_, fun e => ⟨fun hfailure => ?_,
    failure?_of_failsFirst⟩⟩
  · rcases completes_or_failsFirst view bytes o with h | ⟨e, h⟩
    · exact h
    · rw [Report.code, result_of_failsFirst h] at hcode
      cases hcode
  · rw [Report.code, hsuccess applied h]
  · cases hunique config' hconfig'
    have hformat : (o.format.or (formatGiven? view home)).getD .json =
        o.format.getD config.outputFormat := by
      rw [outputFormat_of_inEffect hconfig, Option.getD_or]
    rw [Report.failure?, Report.printed, hsuccess applied h, hformat]
    exact ⟨rfl, rfl⟩
  · obtain ⟨e, h⟩ := (completes_or_failsFirst view bytes o).resolve_left hnone
    rw [Report.code, Report.printed, result_of_failsFirst h]
    exact ⟨rfl, rfl, e, failure?_of_failsFirst h⟩
  · rcases completes_or_failsFirst view bytes o with ⟨applied, h⟩ | ⟨e', h⟩
    · rw [Report.failure?, hsuccess applied h] at hfailure
      cases hfailure
    · rw [failure?_of_failsFirst h] at hfailure
      cases hfailure
      exact h

/-- Settings that ask for YAML. -/
def yamlConfig : Config := ⟨.yaml, false, "warn"⟩

/-- A document to take values from. -/
def sixAndTrue : Value := .object [("b", .number (.int 6)), ("c", .boolean true)]

/-- A document, a list of transitions, and a file of settings. -/
def furnished : View
  | "a.json" => .file (Json.write .compact sixAndTrue).toUTF8
  | "t.json" => .file (Json.write .compact (.array [.string "c|n"])).toUTF8
  | "/home/u/.config/datatransit/config.toml" => .file yamlConfig.write.toUTF8
  | _ => .absent

/-- The arguments `-T t.json -t b a.json`. -/
def listedThenGiven : Options := ⟨some "a.json", ["b"], some "t.json", none, false, 0⟩

/-- What these arguments collect. -/
def trueAndSix : Transition.Results :=
  ⟨[("n", .boolean true), ("b", .number (.int 6))], by decide⟩

/-- The arguments `-T t b.json`. -/
def missing : Options := ⟨some "b.json", [], some "t", none, false, 0⟩

/-- The settings of `furnished` ask for YAML. -/
theorem inEffect_furnished : InEffect furnished "/home/u" yamlConfig := by
  have hpath : Config.pathIn "/home/u" = "/home/u/.config/datatransit/config.toml" := by
    decide +kernel
  have hfile : furnished (Config.pathIn "/home/u") = .file yamlConfig.write.toUTF8 := by
    rw [hpath]
    rfl
  exact inEffect_of_saved hfile

theorem listed_listedThenGiven : listed furnished listedThenGiven = .ok [.string "c|n"] := by
  have hreads : Json.ReadsBack Json.maxNesting (.array [.string "c|n"]) :=
    ⟨by simp [Value.DistinctKeys, Value.DistinctItems],
      by simp [Value.AllNumbers, Value.AllNumbersItems], by decide⟩
  exact loadTransitions_of_read (by decide) (readText_of_file rfl (by decide))
    (Json.read_write hreads .compact)

theorem loaded_listedThenGiven : loaded furnished .empty listedThenGiven = .ok sixAndTrue := by
  have hreads : Json.ReadsBack Json.maxNesting sixAndTrue :=
    ⟨by simp [sixAndTrue, Value.DistinctKeys, Value.DistinctEntries, Entries.keys],
      by simp [sixAndTrue, Value.AllNumbers, Value.AllNumbersEntries, Document.Number.Canonical],
      by decide⟩
  exact loadSource_of_read (by decide) (readText_of_file rfl (by decide))
    (Json.read_write hreads .compact)

/-- The run `Completes` with the value of the listed expression before that of the given one. -/
theorem completes_listedThenGiven : Completes furnished .empty listedThenGiven
    ⟨["c|n", "b"].map Transition.Expression.token, trueAndSix⟩ := by
  have hchildren : Transition.children sixAndTrue ≠ [] := List.cons_ne_nil _ _
  have hrefused : (["c|n", "b"].map Transition.Expression.token).findSome?
      (Transition.refusal? sixAndTrue) = none := by
    simp only [List.map_cons, List.map_nil, List.findSome?_cons, Transition.refusal?,
      Transition.find_eq_seek]
    rfl
  have hstored : Transition.stored sixAndTrue (["c|n", "b"].map Transition.Expression.token) =
      [("n", .boolean true), ("b", .number (.int 6))] := by
    simp only [Transition.stored, Transition.find_eq_seek]
    rfl
  have happlied : (Transition.applyValues (["c|n", "b"].map .string) sixAndTrue).2 =
      .ok ⟨["c|n", "b"].map Transition.Expression.token, trueAndSix⟩ := by
    rw [Transition.applyValues_expressions, if_neg (List.cons_ne_nil _ _), if_neg hchildren,
      if_pos (by decide), Transition.matchTokens_eq, hrefused, hstored]
    rfl
  exact .mk listed_listedThenGiven (List.cons_ne_nil _ _) loaded_listedThenGiven happlied

/-- The entries of a list come before the other expressions, and what they lead to is printed as
YAML, as the settings ask.  Of two files that are missing the one with the transitions is told. -/
theorem run_pipeline_furnished :
    (run ⟨furnished, "/home/u", some .empty⟩ listedThenGiven).code = 0 ∧
    InEffect furnished "/home/u" yamlConfig ∧
    (run ⟨furnished, "/home/u", some .empty⟩ listedThenGiven).failure? = none ∧
    (run ⟨furnished, "/home/u", some .empty⟩ listedThenGiven).printed =
      render .yaml false trueAndSix ∧
    (run ⟨furnished, "/home/u", some .empty⟩ missing).code = 1 ∧
    (run ⟨furnished, "/home/u", some .empty⟩ missing).printed = "" ∧
    (run ⟨furnished, "/home/u", some .empty⟩ missing).failure? = some (.files (.unread "t")) := by
  have hmissing : listed furnished missing = .error (.unread "t") := rfl
  have hnone : ¬ ∃ applied, Completes furnished .empty missing applied := by
    rintro ⟨-, hok, -, -, -⟩
    rw [hmissing] at hok
    cases hok
  obtain ⟨hcode, -, hprinted, -⟩ := run_pipeline furnished "/home/u" .empty listedThenGiven
  obtain ⟨-, -, -, hfails, hfailure⟩ := run_pipeline furnished "/home/u" .empty missing
  obtain ⟨hsuccess, htold⟩ := hprinted _ _ completes_listedThenGiven inEffect_furnished
  obtain ⟨hone, hnothing, -⟩ := hfails hnone
  have hformat :
      (listedThenGiven.format.or (formatGiven? furnished "/home/u")).getD .json = .yaml :=
    (outputFormat_of_inEffect inEffect_furnished).symm
  rw [hformat] at htold
  exact ⟨hcode.2 ⟨_, completes_listedThenGiven⟩, inEffect_furnished, hsuccess, htold, hone,
    hnothing, (hfailure _).2 (.transitionsFile hmissing)⟩

end Extraction.Command
