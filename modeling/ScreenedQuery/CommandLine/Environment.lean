import ScreenedQuery.Sql.Evaluation

/-!
# The surroundings of the program

What the program finds around it: a name for the file with the settings, files, and databases.

## Main definitions

* `Environment`: the surroundings, seen through the effects of `m`
* `Folder`: files by their paths
* `Folder.environment`: the surroundings of a program that is run in a folder
-/

namespace ScreenedQuery

/-- What a path leads to, for who wants to read a text. -/
inductive FileState
  | missing
  /-- Something that cannot be read. -/
  | unreadable
  | bytes (content : ByteArray)

/-- What a path leads to, for who wants to open a database. -/
inductive StoreState
  /-- A place where no database can be. -/
  | unavailable
  /-- Something that is no database. -/
  | broken
  | tables (database : Sql.Database)

/-- **The surroundings of the program.** -/
structure Environment (m : Type → Type) where
  /-- The name of the file with the settings, if one is set. -/
  configName : m (Option String)
  /-- The folder in which settings are kept when nothing is said about them. -/
  configFolder : m (Option String)
  file : String → m FileState
  store : String → m StoreState

/-! ## Folders -/

/-- The content of a file. -/
inductive Content
  | bytes (content : ByteArray)
  | store (database : Sql.Database)

/-- **A folder**: its files by their paths, each a row of names. -/
structure Folder where
  files : List (List String × Content)

namespace Folder

/-- The names in a path. -/
def names (path : String) : List String :=
  ((splitParts '/' path.toList).map String.ofList).filter fun name => name != "" && name != "."

/-- Whether a row of names is the path of a folder. -/
def isFolder (folder : Folder) (path : List String) : Bool :=
  path.isEmpty || folder.files.any fun file => path.isPrefixOf file.1 && path != file.1

/-- Where names lead from a place. Only folders can be passed through, and the folder above the
outermost one is not known. -/
def walk (folder : Folder) (place : List String) : List String → Option (List String)
  | [] => some place
  | name :: names =>
    if !folder.isFolder place then none
    else if name = ".." then
      if place.isEmpty then none else walk folder place.dropLast names
    else walk folder (place ++ [name]) names

/-- Where a path leads. Paths from the root are not known. -/
def resolve (folder : Folder) (path : String) : Option (List String) :=
  if path.isEmpty || path.toList.head? == some '/' then none else folder.walk [] (names path)

/-- Whether a path asks for a folder. -/
def asksForFolder (path : String) : Bool := path.toList.getLast? == some '/'

def content? (folder : Folder) (path : List String) : Option Content := folder.files.lookup path

def find (folder : Folder) (path : String) : FileState :=
  match folder.resolve path with
  | none => .missing
  | some place =>
    match folder.content? place with
    | some (.bytes content) => if asksForFolder path then .missing else .bytes content
    | some (.store _) => .unreadable
    | none => if folder.isFolder place then .unreadable else .missing

/-- The names that stand for a database outside any folder. -/
def isTransient (path : String) : Bool := path == "" || path == ":memory:"

/-- The database at a path. A file that is not there is an empty database. -/
def open? (folder : Folder) (path : String) : StoreState :=
  if isTransient path then .tables []
  else match folder.resolve path with
    | none => .unavailable
    | some place =>
      match folder.content? place with
      | some (.store database) => .tables database
      | some (.bytes content) => if content.isEmpty then .tables [] else .broken
      | none =>
        if folder.isFolder place || !folder.isFolder place.dropLast || asksForFolder path then
          .unavailable
        else .tables []

/-- A program that is run in a folder finds its settings there, too. -/
def environment (folder : Folder) (configName : Option String) : Environment Id where
  configName := configName
  configFolder := some "."
  file := folder.find
  store := folder.open?

end Folder

end ScreenedQuery
