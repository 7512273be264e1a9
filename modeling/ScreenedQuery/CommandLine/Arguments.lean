import ScreenedQuery.Text

/-!
# Arguments

The program has three commands. Some options may stand before and behind the command, the others
belong to one. An option may not be repeated on the same side of the command; of an option that
stands on both sides the one behind the command counts, and one that stands nowhere may have a
value in the surroundings of the program.

## Main definitions

* `Arguments.Level`: what may stand before a command, or behind one
* `Arguments.read`: the options and texts of one level
* `Invocation`: what the program is asked to do
* `Invocation.ofArguments`: the invocation of arguments

## Implementation notes

`read` is bounded by a count of steps; every step uses up an argument.
-/

namespace ScreenedQuery

/-- Why arguments are no invocation. -/
inductive Arguments.Stop
  | usage
  | help
  | version
  deriving DecidableEq

namespace Arguments

/-- What the value of an option has to be. -/
inductive Form
  | text
  /-- A path, which is not empty. -/
  | path
  | layout
  deriving DecidableEq

/-- Whether a text has the form of a value. -/
def Form.accepts : Form → String → Bool
  | text, _ => true
  | path, value => value != ""
  | layout, value => value == "text" || value == "json"

/-- **What may stand on one side of the command.** -/
structure Level where
  /-- The options with a value. -/
  options : List (String × Form)
  /-- The options without a value. -/
  flags : List String
  /-- How many texts that are no options may stand there; without a number the first such text is
  the command. -/
  texts : Option Nat
  /-- Whether the version can be asked for. -/
  tellsVersion : Bool

/-- What stands on one side of the command. -/
structure Found where
  options : List (String × String) := []
  flags : List String := []
  /-- The texts that are no options. -/
  texts : List String := []

/-- An option with its value, which must be new and of the right form. -/
def Found.addOption (found : Found) (name : String) (form : Form) (value : String) :
    Except Stop Found :=
  if (found.options.lookup name).isSome || !form.accepts value then .error .usage
  else .ok { found with options := found.options ++ [(name, value)] }

/-- An option without a value, which must be new. -/
def Found.addFlag (found : Found) (name : String) : Except Stop Found :=
  if found.flags.contains name then .error .usage
  else .ok { found with flags := found.flags ++ [name] }

/-- A text, if there is room for it. -/
def Found.addText (found : Found) (level : Level) (text : String) : Except Stop Found :=
  if found.texts.length < level.texts.getD 0 then
    .ok { found with texts := found.texts ++ [text] }
  else .error .usage

/-- The kinds of arguments. -/
inductive Kind
  /-- The mark behind which there are no options. -/
  | mark
  /-- The name of an option, possibly with a value. -/
  | long (name : String) (value : Option String)
  /-- Options of one letter. -/
  | short (letter : Char)
  | plain

/-- The kind of an argument. A single dash is no option. -/
def kindOf (argument : String) : Kind :=
  match argument.toList with
  | ['-', '-'] => .mark
  | '-' :: '-' :: text =>
    let name := String.ofList (text.takeWhile (· != '='))
    match text.dropWhile (· != '=') with
    | '=' :: value => .long name (some (String.ofList value))
    | _ => .long name none
  | '-' :: letter :: _ => .short letter
  | _ => .plain

/-- Whether an argument can be the value of the option before it. -/
def isValue (argument : String) : Bool :=
  match kindOf argument with
  | .plain => true
  | _ => false

/-- What is asked by an option that stops the reading. -/
def Level.stop (level : Level) (help version : Bool) : Stop :=
  if help then .help else if version && level.tellsVersion then .version else .usage

/-- **The options and texts of a level**, and the command with the arguments behind it. -/
def read (level : Level) : Nat → Found → List String →
    Except Stop (Found × Option (String × List String))
  | 0, _, _ => .error .usage
  | _ + 1, found, [] => .ok (found, none)
  | steps + 1, found, argument :: rest =>
    match kindOf argument with
    | .mark => do
      let found ← rest.foldlM (fun found text => found.addText level text) found
      return (found, none)
    | .short letter => .error (level.stop (letter == 'h') (letter == 'V'))
    | .plain =>
      if level.texts.isNone then .ok (found, some (argument, rest))
      else do
        let found ← found.addText level argument
        read level steps found rest
    | .long name value =>
      match level.options.lookup name, value with
      | some form, some value => do
        let found ← found.addOption name form value
        read level steps found rest
      | some form, none =>
        match rest with
        | [] => .error .usage
        | value :: rest =>
          if isValue value then do
            let found ← found.addOption name form value
            read level steps found rest
          else .error .usage
      | none, some _ => .error .usage
      | none, none =>
        if level.flags.contains name then do
          let found ← found.addFlag name
          read level steps found rest
        else .error (level.stop (name == "help") (name == "version"))

end Arguments

inductive Layout
  /-- For readers. -/
  | text
  /-- For programs. -/
  | json
  deriving DecidableEq

inductive Action
  /-- Run a fragment file on a database and print the rows. -/
  | query (database : Option String) (file : String) (transaction : Bool)
  /-- Print what a fragment file compiles to. -/
  | compile (file : String)
  /-- Tell whether the screen accepts a text, or a field name. -/
  | screen (text : String) (field : Bool)
  deriving DecidableEq

/-- **What the program is asked to do.** -/
structure Invocation where
  /-- The file with the settings. -/
  config : Option String
  /-- Which messages are logged. -/
  logLevel : Option String
  layout : Layout
  action : Action
  deriving DecidableEq

namespace Invocation

open Arguments

/-- The options that may stand on either side of the command. -/
def sharedOptions : List (String × Form) :=
  [("config", .path), ("log-level", .text), ("format", .layout)]

/-- The side before the command. -/
def before : Level := ⟨sharedOptions, [], none, true⟩

/-- The side behind a command. -/
def behind : String → Option Level
  | "query" =>
    some ⟨sharedOptions ++ [("db", .path), ("file", .path)], ["transaction"], some 0, false⟩
  | "compile" => some ⟨sharedOptions ++ [("file", .path)], [], some 0, false⟩
  | "screen" => some ⟨sharedOptions, ["field"], some 1, false⟩
  | _ => none

/-- The action of a command with what stands behind it. -/
def toAction? (command : String) (found : Found) : Option Action :=
  match command with
  | "query" => (found.options.lookup "file").map fun file =>
    .query (found.options.lookup "db") file (found.flags.contains "transaction")
  | "compile" => (found.options.lookup "file").map .compile
  | "screen" => found.texts.head?.map fun text => .screen text (found.flags.contains "field")
  | _ => none

/-- An option that may stand on either side: the one behind the command counts. -/
def shared (first second : Found) (name : String) : Option String :=
  (second.options.lookup name).or (first.options.lookup name)

/-- The file with the settings: an option, or else what the surroundings name. A name there must
not be empty, unless the option stands on both sides. -/
def configFile (first second : Found) (surroundings : Option String) :
    Except Stop (Option String) :=
  let onBothSides :=
    (first.options.lookup "config").isSome && (second.options.lookup "config").isSome
  if surroundings = some "" ∧ !onBothSides then .error .usage
  else .ok ((shared first second "config").or surroundings)

/-- **The invocation of arguments**; `surroundings` names the file with the settings when no
option does. -/
def ofArguments (surroundings : Option String) (arguments : List String) :
    Except Stop Invocation := do
  let (first, command) ← read before (arguments.length + 1) {} arguments
  match command with
  | none => .error .usage
  | some (name, rest) =>
    match behind name with
    | none => .error .usage
    | some level =>
      let (second, _) ← read level (rest.length + 1) {} rest
      let config ← configFile first second surroundings
      match toAction? name second with
      | none => .error .usage
      | some action =>
        let layout := if shared first second "format" = some "json" then .json else .text
        return ⟨config, shared first second "log-level", layout, action⟩

end Invocation

end ScreenedQuery
