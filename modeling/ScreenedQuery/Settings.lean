import ScreenedQuery.Screen.Basic
import ScreenedQuery.Toml.Reader

/-!
# Settings

The settings of the program are written in TOML. Every one of them has a default.

## Main definitions

* `Settings`: the settings
* `Settings.ofBytes`: the settings in the bytes of a file
* `Settings.ofFile`, `Settings.load`: the settings in a file that may be missing
* `Settings.screen`: the screen that they describe

## Main results

* `Settings.ofText_empty`: an empty text holds the defaults
-/

namespace ScreenedQuery

/-- What the screen denies beside the usual. -/
structure ScreenSettings where
  /-- The further keywords as written. -/
  extraKeywords : List String := []
  deriving DecidableEq

structure StoreSettings where
  /-- The file of the store, if one is named. -/
  path : Option String := none
  /-- Whether every query runs in a transaction. -/
  transactional : Bool := false
  deriving DecidableEq

/-- **The settings of the program.** -/
structure Settings where
  /-- Which messages are logged. -/
  logLevel : String := "info"
  screening : ScreenSettings := {}
  store : StoreSettings := {}
  deriving DecidableEq

/-- Why settings cannot be used. -/
inductive SettingsError
  /-- The file cannot be read as text. -/
  | read
  /-- The text does not describe settings. -/
  | parse
  deriving DecidableEq

namespace Toml

/-- A text. -/
def toText? : Toml → Option String
  | string s => some s
  | _ => none

/-- A truth value. -/
def toBool? : Toml → Option Bool
  | boolean b => some b
  | _ => none

/-- An array of texts. -/
def toTexts? : Toml → Option (List String)
  | array items | tables items => items.mapM toText?
  | _ => none

/-- The fields of a section: a table, or an array of the fields in their order. A moment is a
section, too: its parts have names of their own, so that it has none of the fields. -/
def fields? (names : List String) : Toml → Option Entries
  | table _ entries => some entries
  | array items | tables items => some (names.zip items)
  | moment _ => some []
  | _ => none

/-- A field that has a default. -/
def Entries.field {α : Type} (entries : Entries) (name : String) (read : Toml → Option α)
    (absent : α) : Option α :=
  match entries.lookup name with
  | none => some absent
  | some value => read value

end Toml

def ScreenSettings.ofToml? (section_ : Toml) : Option ScreenSettings := do
  let fields ← section_.fields? ["extra_keywords"]
  return ⟨← fields.field "extra_keywords" Toml.toTexts? []⟩

def StoreSettings.ofToml? (section_ : Toml) : Option StoreSettings := do
  let fields ← section_.fields? ["path", "transactional"]
  let path ← fields.field "path" (fun value => value.toText?.map some) none
  return ⟨path, ← fields.field "transactional" Toml.toBool? false⟩

namespace Settings

/-- The settings of a document. What is not known is left aside. -/
def ofEntries? (entries : Toml.Entries) : Option Settings := do
  let logLevel ← entries.field "log_level" Toml.toText? "info"
  let screening ← entries.field "screen" ScreenSettings.ofToml? {}
  let store ← entries.field "sqlite" StoreSettings.ofToml? {}
  return ⟨logLevel, screening, store⟩

def ofText (text : String) : Except SettingsError Settings :=
  match (Toml.parse text).bind ofEntries? with
  | some settings => .ok settings
  | none => .error .parse

/-- **The settings in the bytes of a file**, which have to be UTF-8. -/
def ofBytes (bytes : ByteArray) : Except SettingsError Settings :=
  match String.fromUTF8? bytes with
  | some text => ofText text
  | none => .error .read

/-- The settings in a file that has to be there. -/
def ofFile (file : Option ByteArray) : Except SettingsError Settings :=
  match file with
  | some bytes => ofBytes bytes
  | none => .error .read

/-- The settings in a file that may be missing; then all have their defaults. -/
def load (file : Option ByteArray) : Except SettingsError Settings :=
  match file with
  | some bytes => ofBytes bytes
  | none => .ok {}

/-- The screen that the settings describe. -/
def screen (settings : Settings) : Screen := Screen.withKeywords settings.screening.extraKeywords

/-- An empty text holds the defaults. -/
theorem ofText_empty : ofText "" = .ok {} := by
  rfl

end Settings

end ScreenedQuery
