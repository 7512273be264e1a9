import ScreenedQuery.CommandLine.Arguments
import ScreenedQuery.CommandLine.Environment
import ScreenedQuery.CommandLine.FragmentFile
import ScreenedQuery.CommandLine.LogFilter
import ScreenedQuery.Json.Writer
import ScreenedQuery.Session
import ScreenedQuery.Settings

/-!
# The program

The program reads its arguments and its settings, carries out one command in its surroundings and
prints what comes of it.

## Main definitions

* `Failure`: why a command fails
* `Outcome`: what the program leaves behind: its exit code, what it prints, and a failure
* `Report`: what a command has found out
* `Program.run`: the program

## Main results

* `Outcome.ofFailure_stdout`: a program that fails prints nothing
-/

namespace ScreenedQuery

/-- **Why a command fails.** -/
inductive Failure
  | usage
  | configRead
  | configParse
  | logLevel
  | fragmentRead
  | fragmentFile
  | store
  /-- Anything else, in words. -/
  | failed (message : String)
  deriving DecidableEq

namespace Failure

/-- A session's error as a failure. -/
def ofQueryError : QueryError → Failure
  | .backend .store => store
  | error => failed error.message

def ofSettingsError : SettingsError → Failure
  | .read => configRead
  | .parse => configParse

/-- The exit code of a failure. -/
def exitCode : Failure → Nat
  | usage => 2
  | _ => 1

def message : Failure → String
  | usage => "the arguments are not understood"
  | configRead => "failed to read config"
  | configParse => "failed to parse config"
  | logLevel => "invalid log level"
  | fragmentRead => "failed to read the fragment file"
  | fragmentFile => "invalid fragment file"
  | store => "the store refused the statement"
  | failed message => message

end Failure

/-- **What the program leaves behind.** -/
structure Outcome where
  exitCode : Nat
  stdout : String
  /-- The failure, if there is one. -/
  failure : Option Failure
  deriving DecidableEq

def Outcome.ofFailure (failure : Failure) : Outcome := ⟨failure.exitCode, "", some failure⟩

/-- A program that fails prints nothing. -/
@[simp] theorem Outcome.ofFailure_stdout (failure : Failure) : (ofFailure failure).stdout = "" :=
  rfl

/-! ## Reports -/

/-- **What a command has found out.** -/
inductive Report
  | rows (rows : List Record)
  | compiled (query : CompiledQuery)
  | screened (input : String) (field suspicious : Bool)

namespace Report

def rowJson (row : Record) : Json :=
  .object (row.entries.map fun entry => (entry.1, entry.2.toPlain))

def toJson : Report → Json
  | rows found => .array (found.map rowJson)
  | compiled query => query.toJson
  | screened input field suspicious =>
    .object [("input", .string input), ("field", .bool field), ("suspicious", .bool suspicious)]

/-- A field of a row for readers. -/
def fieldText (entry : String × Value) : String := entry.1 ++ "=" ++ entry.2.toPlain.compact

def rowText (row : Record) : String := " ".intercalate (row.entries.map fieldText)

def paramText (param : Value × Nat) : String :=
  "  " ++ (Placeholder.mk param.2).marker ++ " = " ++ param.1.display

/-- The lines of a report for readers. -/
def lines : Report → List String
  | rows found => found.map rowText ++ ["(" ++ toString found.length ++ " rows)"]
  | compiled query => query.text :: query.params.zipIdx.map paramText
  | screened _ _ suspicious => [if suspicious then "rejected" else "accepted"]

/-- The text of a report in a layout. -/
def text (layout : Layout) (report : Report) : String :=
  match layout with
  | .json => report.toJson.pretty ++ "\n"
  | .text => String.join (report.lines.map (· ++ "\n"))

/-- The exit code of a report: what the screen rejects is told by it. -/
def exitCode : Report → Nat
  | screened _ _ true => 2
  | _ => 0

end Report

/-! ## Commands -/

namespace Program

variable {m : Type → Type} [Monad m]

/-- What the program says of its version. -/
def versionText : String := "cradle 0.1.0\n"

/-- What the program says of its use. -/
def helpText : String :=
  "Build, screen, and run fragment queries against SQLite\n\nUsage: cradle [OPTIONS] <COMMAND>\n"

/-- The path of the settings when nothing is said about them. -/
def defaultConfig (folder : String) : String := folder ++ "/cradle/config.toml"

/-- The settings at a path. Settings that are not there have their defaults. -/
def settingsAt (environment : Environment m) (path : Option String) :
    ExceptT Failure m Settings := do
  let path ← match path with
    | some path => pure (some path)
    | none => do
      let folder ← environment.configFolder
      pure (folder.map defaultConfig)
  match path with
  | none => pure {}
  | some path =>
    match ← environment.file path with
    | .missing => pure {}
    | .unreadable => throw .configRead
    | .bytes content =>
      match Settings.ofBytes content with
      | .ok settings => pure settings
      | .error error => throw (.ofSettingsError error)

def fragmentsAt (environment : Environment m) (path : String) :
    ExceptT Failure m (List Fragment) := do
  let text ← match ← environment.file path with
    | .bytes content => pure (String.fromUTF8? content)
    | _ => pure none
  match text with
  | none => throw .fragmentRead
  | some text =>
    match FragmentFile.parse text with
    | none => throw .fragmentFile
    | some entries =>
      match FragmentFile.fragments entries with
      | .ok fragments => pure fragments
      | .error bad => throw (.failed bad.message)

/-- The database at a path, as a backend. -/
def backendAt (environment : Environment m) (screen : Screen) (path : String) :
    ExceptT Failure m Backend := do
  match ← environment.store path with
  | .unavailable => throw .store
  | .broken => pure { Sql.backend screen [] with execute := fun _ => .error .store }
  | .tables database => pure (Sql.backend screen database)

/-- A session with a backend in which fragments are queued. -/
def sessionOf (backend : Backend) (fragments : List Fragment) : Session :=
  fragments.foldl Session.push (({} : Session).attach (some backend))

/-- **The rows of a query**: those of the target that is declared last. -/
def queryRows (backend : Backend) (transactional : Bool) (fragments : List Fragment) :
    Except Failure (List Record) :=
  match lastTarget? fragments with
  | none => .error (.failed "fragment file has no \x60find\x60 entry")
  | some target =>
    let session := sessionOf backend fragments
    let session := if transactional then session.transaction.2 else session
    match session.execute with
    | (.ok (), session) => .ok (session.ledger.buffers.take target.buffer).1
    | (.error error, _) => .error (.ofQueryError error)

/-- **The compiled query** of fragments. -/
def compileFragments (backend : Backend) (fragments : List Fragment) :
    Except Failure CompiledQuery :=
  match (sessionOf backend fragments).compile.1 with
  | .ok query => .ok query
  | .error error => .error (.ofQueryError error)

def act (environment : Environment m) (settings : Settings) :
    Action → ExceptT Failure m Report
  | .query database file transaction => do
    match database.or settings.store.path with
    | none => throw (.failed "no database given; pass --db or set [sqlite] path")
    | some path =>
      let backend ← backendAt environment settings.screen path
      let fragments ← fragmentsAt environment file
      let rows ← ExceptT.mk (pure
        (queryRows backend (transaction || settings.store.transactional) fragments))
      return .rows rows
  | .compile file => do
    let fragments ← fragmentsAt environment file
    let query ← ExceptT.mk (pure
      (compileFragments (Sql.backend settings.screen []) fragments))
    return .compiled query
  | .screen text field =>
    let screen := settings.screen
    return .screened text field (if field then screen.flagsField text else screen.flagsText text)

def invoke (environment : Environment m) (invocation : Invocation) :
    ExceptT Failure m Report := do
  let settings ← settingsAt environment invocation.config
  if !LogFilter.isValid (invocation.logLevel.getD settings.logLevel) then throw .logLevel
  act environment settings invocation.action

/-- **The program.** -/
def run (environment : Environment m) (arguments : List String) : m Outcome := do
  match Invocation.ofArguments (← environment.configName) arguments with
  | .error .usage => return .ofFailure .usage
  | .error .help => return ⟨0, helpText, none⟩
  | .error .version => return ⟨0, versionText, none⟩
  | .ok invocation =>
    match ← (invoke environment invocation).run with
    | .error failure => return .ofFailure failure
    | .ok report => return ⟨report.exitCode, report.text invocation.layout, none⟩

end Program

end ScreenedQuery
