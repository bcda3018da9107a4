import Extraction.Config
import Extraction.Proofs.Files.Saved
import Extraction.Proofs.Toml.Document

/-!
# Extraction.Proofs.Config

Settings that were saved are loaded as they were.

The file is a document of three lines, one for each setting, so what is read from it is the
table of the settings; and the path that it was saved to leads to it.

* `read?_write` — the text of settings is read back;
* `load_of_view` — so is a file that holds it, wherever it is found;
* `load_of_save` — settings are loaded from the path that they were saved to.
-/

namespace Extraction.Config

open Files (Found Tree View)

/-- The lines of the file. -/
def entries (c : Config) : List Toml.Entry :=
  [.ofString "output_format" c.outputFormat.name, .ofBoolean "pretty" c.pretty,
    .ofString "log_level" c.logLevel]

/-- `write` puts the lines of the settings one after the other. -/
theorem write_eq (c : Config) :
    c.write = String.ofList (c.entries.flatMap Toml.Entry.chars) := by
  unfold write entries line
  simp only [Toml.Entry.chars, Toml.Entry.ofString, Toml.Entry.ofBoolean, List.flatMap_cons,
    List.flatMap_nil, List.append_nil, List.append_assoc]

/-- Every line is `WellFormed`, whatever text the level of the log is. -/
theorem wellFormed_of_mem_entries {c : Config} : ∀ e ∈ c.entries, e.WellFormed := by
  have hformat : Toml.IsBare "output_format" := by decide
  have hpretty : Toml.IsBare "pretty" := by decide
  have hlevel : Toml.IsBare "log_level" := by decide
  unfold entries
  simp [Toml.wellFormed_ofString hformat, Toml.wellFormed_ofBoolean hpretty,
    Toml.wellFormed_ofString hlevel]

/-- The text of settings is read back, whatever the settings are. -/
theorem read?_write (c : Config) : read? c.write = some c := by
  have hnames : c.entries.map Toml.Entry.key = ["output_format", "pretty", "log_level"] := rfl
  have hkeys : (c.entries.map Toml.Entry.key).Nodup := by
    rw [hnames]
    decide
  have htable : Toml.read? c.write = some (c.entries.map fun e => (e.key, e.value)) := by
    rw [write_eq, Toml.read?_flatMap wellFormed_of_mem_entries hkeys]
  have hformat : formatOf? (.string c.outputFormat.name) = some c.outputFormat :=
    OutputFormat.ofName?_name c.outputFormat
  rw [read?, htable, Option.bind_some]
  simp [ofTable?, setting?, entries, Toml.Entry.ofString, Toml.Entry.ofBoolean,
    Document.Entries.get?, hformat, booleanOf?, stringOf?]

/-- The bytes of a text are read as the text. -/
theorem fromUTF8?_toUTF8 (s : String) : String.fromUTF8? s.toUTF8 = some s := by
  unfold String.fromUTF8?
  rw [String.toUTF8_eq_toByteArray, dif_pos s.isValidUTF8]
  rfl

/-- A file with the text of settings holds these settings. -/
theorem load_of_view {c : Config} {view : View} {path : String}
    (h : view path = .file c.write.toUTF8) : load view path = .ok c := by
  rw [load, h, ofFound]
  simp only [fromUTF8?_toUTF8, read?_write]

/-- **Settings survive saving and loading**: where they were saved, they are loaded as they were,
with every text as level, and so from any file with the text that is saved. -/
theorem load_of_save {c : Config} {path : String} {before after : Tree}
    (h : c.save? path before = some after) : load after.view path = .ok c :=
  load_of_view (Tree.view_save h)

/-- Settings whose level has marks of both kinds, more than two in a row, a line feed and control
characters, so that it is written over several lines and with escapes. -/
def marked : Config := ⟨.yaml, false, "\n'''\\ \"\"\"\"\t\x7f\r\n\""⟩

/-- They are saved below a directory that has to be made first, and, by a way through directories,
over another file. -/
theorem load_of_save_marked :
    (∃ before after, marked.save? "/tmp/nested/config.toml" before = some after ∧
      load after.view "/tmp/nested/config.toml" = .ok marked) ∧
    ∃ before after, marked.save? "conf/../conf/a.toml" before = some after ∧
      load after.view "conf/../conf/a.toml" = .ok marked := by
  have hmade : marked.save? "/tmp/nested/config.toml" (.directory [("tmp", .directory [])]) =
      some (.directory [("tmp", .directory
        [("nested", .directory [("config.toml", .file marked.write.toUTF8)])])]) := rfl
  have hover : marked.save? "conf/../conf/a.toml"
      (.directory [("conf", .directory [("a.toml", .file ByteArray.empty)])]) =
      some (.directory [("conf", .directory [("a.toml", .file marked.write.toUTF8)])]) := rfl
  exact ⟨⟨_, _, hmade, load_of_save hmade⟩, _, _, hover, load_of_save hover⟩

end Extraction.Config
