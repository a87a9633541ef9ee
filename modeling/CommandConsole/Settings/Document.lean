import CommandConsole.Settings.Basic
import CommandConsole.Toml.Document

/-!
# Settings in a document

Each setting is taken from the document where its key is present, and is its default otherwise. Keys
that name no setting are passed over. A group of settings is written as a table, or as an array of
its settings in their order, of which the last ones may be missing; in place of a table a date or
time stands for an empty one.
-/

namespace CommandConsole

namespace Toml.Value

/-- The text of a string. -/
def text? : Value → Option String
  | .string text => some text
  | _ => none

/-- The value of an integer that is not below zero. -/
def natural? : Value → Option Nat
  | .integer value => if 0 ≤ value then some value.toNat else none
  | _ => none

/-- The value of a float, or the float nearest to an integer. -/
def number? : Value → Option Binary64
  | .float value => some value
  | .integer value => some (.ofInt value)
  | _ => none

/-- The settings of a group, each found by its key or by its place. -/
def group? : Value → Option (String → Nat → Option Value)
  | .table _ entries => some fun key _ => Toml.Entries.get? entries key
  | .array items => some fun _ place => items[place]?
  | .tables items => some fun _ place => items[place]?.map (.table .defined)
  | .dateTime => some fun _ _ => none
  | _ => none

end Toml.Value

open Toml (Value Entries)

/-- The setting that a value gives, or its default where there is no value. -/
def settingOr {α : Type} (read : Value → Option α) (default : α) : Option Value → Option α
  | none => some default
  | some value => read value

/-- The settings of scripts in a document. -/
def ScriptSettings.ofValue? (value : Value) : Option ScriptSettings := do
  let found ← value.group?
  let lineDelay ←
    settingOr Value.natural? ScriptSettings.default.lineDelay (found "line_delay_ms" 0)
  let defaultPauseSeconds ←
    settingOr Value.number? ScriptSettings.default.defaultPauseSeconds
      (found "default_pause_secs" 1)
  let commentPrefix ←
    settingOr Value.text? ScriptSettings.default.commentPrefix (found "comment_prefix" 2)
  let pauseDirective ←
    settingOr Value.text? ScriptSettings.default.pauseDirective (found "pause_directive" 3)
  some { lineDelay, defaultPauseSeconds, commentPrefix, pauseDirective }

namespace Settings

/-- The capacity of the history in a document. -/
def historyCapacityOfValue? (value : Value) : Option Nat := do
  let found ← value.group?
  settingOr Value.natural? Settings.default.historyCapacity (found "max_entries" 0)

/-- The settings in the content of a document. -/
def ofEntries? (entries : Entries) : Option Settings := do
  let version ← settingOr Value.text? Settings.default.version (entries.get? "version")
  let banner ← settingOr Value.text? Settings.default.banner (entries.get? "banner")
  let historyCapacity ←
    settingOr historyCapacityOfValue? Settings.default.historyCapacity (entries.get? "history")
  let script ← settingOr ScriptSettings.ofValue? .default (entries.get? "script")
  some { version, banner, historyCapacity, script }

/-- Why no settings come from a document. -/
inductive LoadError where
  /-- The file is missing or holds no text. -/
  | unreadable
  /-- The text is no document, or a value does not fit its setting. -/
  | malformed
  /-- The settings are not admissible. -/
  | notAdmissible (cause : SettingsError)
  deriving DecidableEq, Repr

/-- The admissible settings of some entries. -/
def ofTable (entries : Entries) : Except LoadError Settings :=
  match ofEntries? entries with
  | none => .error .malformed
  | some settings =>
    match settings.validate with
    | .ok () => .ok settings
    | .error cause => .error (.notAdmissible cause)

/-- The admissible settings of a document. -/
def ofText (text : String) : Except LoadError Settings :=
  match Toml.parse? text with
  | none => .error .malformed
  | some entries => ofTable entries

/-- Settings that come from the content of a document are admissible. -/
theorem validate_of_ofTable {entries : Entries} {settings : Settings}
    (h : ofTable entries = .ok settings) : settings.validate = .ok () := by
  unfold ofTable at h
  split at h
  · cases h
  · split at h
    · next hvalid =>
      obtain rfl := Except.ok.inj h
      exact hvalid
    · cases h

theorem validate_of_ofText {text : String} {settings : Settings}
    (h : ofText text = .ok settings) : settings.validate = .ok () := by
  unfold ofText at h
  split at h
  · cases h
  · exact validate_of_ofTable h

/-- The settings of the file at a path, or the defaults without a path. -/
def load (read : String → Option String) : Option String → Except LoadError Settings
  | none => .ok .default
  | some path =>
    match read path with
    | none => .error .unreadable
    | some text => ofText text

end Settings

end CommandConsole
