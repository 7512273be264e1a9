import ScreenedQuery.Fragment
import ScreenedQuery.Json.Reader

/-!
# Fragment files

A fragment file is a JSON array of entries. Each entry is an object with one member, named for the
kind of the fragment; its fields have plain JSON values.

## Main definitions

* `FragmentFile.Entry`: an entry as written
* `FragmentFile.parse`: the entries of a text
* `FragmentFile.fragments`: the fragments of entries, each target with a buffer of its own
* `lastTarget?`: the target declared last

## Main results

* `FragmentFile.fragments_length`: every entry becomes one fragment
-/

namespace ScreenedQuery

/-- The target that is declared last among fragments. -/
def lastTarget? (fragments : List Fragment) : Option Target :=
  fragments.foldl (fun found fragment =>
    match fragment with
    | .setTarget _ target => some target
    | _ => found) none

namespace FragmentFile

/-- The fields of a filter as written. -/
abbrev Fields := FieldMap Json

/-- **An entry of a fragment file.** -/
inductive Entry
  | structured (link : Link) (fields : Fields)
  | raw (link : Link) (text : String)
  /-- A target with its filter. -/
  | find (target : String) (fields : Fields)
  | misc (payload : Json)

/-- Fields, the last value of each; all of them have to have a meaning. -/
def toFields? : Json → Option Fields
  | .object members =>
    if Json.membersReadable members then some (FieldMap.ofList members) else none
  | _ => none

/-- A target with its filter; a filter may be left out. -/
def toFind? (json : Json) : Option Entry := do
  let parts ← json.parts? ["target", "filter"] true
  let target ← Json.required parts "target" Json.toText?
  let fields ← Json.optional parts "filter" toFields? .empty
  return .find target fields

/-- The entry of a JSON value. -/
def toEntry? : Json → Option Entry
  | .object [(name, content)] =>
    match name with
    | "where" => (toFields? content).map (.structured .start)
    | "where_str" => content.toText?.map (.raw .start)
    | "and" => (toFields? content).map (.structured .and)
    | "and_str" => content.toText?.map (.raw .and)
    | "or" => (toFields? content).map (.structured .or)
    | "or_str" => content.toText?.map (.raw .or)
    | "find" => toFind? content
    | "misc" => if content.isReadable then some (.misc content.canonical) else none
    | _ => none
  | _ => none

/-- **The entries of a text.** -/
def parse (text : String) : Option (List Entry) :=
  (Json.parse text).bind (Json.toList? toEntry?)

/-- A field whose value is no scalar. -/
structure BadField where
  field : String
  /-- Why its value is no scalar. -/
  reason : Value.NotScalar
  deriving DecidableEq

def BadField.message (bad : BadField) : String :=
  "field '" ++ bad.field ++ "': " ++ bad.reason.message

def toValue (entry : String × Json) : Except BadField (String × Value) :=
  match Value.ofScalar entry.2 with
  | .ok value => .ok (entry.1, value)
  | .error reason => .error ⟨entry.1, reason⟩

/-- The filter of fields; the first field in order that has no scalar value is reported. -/
def toFilter (fields : Fields) : Except BadField Filter :=
  (fields.entries.mapM toValue).map FieldMap.ofList

/-- The fragment of an entry; a target gets the buffer of the given number. -/
def Entry.toFragment (buffer : Nat) : Entry → Except BadField Fragment
  | structured link fields => (toFilter fields).map (.structured link)
  | raw link text => .ok (.raw link text)
  | find target fields => (toFilter fields).map fun filter => .setTarget filter ⟨target, buffer⟩
  | misc payload => .ok (.misc payload)

/-- The fragments of entries, with buffers numbered from `first` on. -/
def fragmentsFrom (first : Nat) : List Entry → Except BadField (List Fragment)
  | [] => .ok []
  | entry :: entries =>
    match entry.toFragment first, fragmentsFrom (first + 1) entries with
    | .error bad, _ => .error bad
    | .ok _, .error bad => .error bad
    | .ok fragment, .ok fragments => .ok (fragment :: fragments)

/-- **The fragments of entries**, each target with a buffer of its own. -/
def fragments (entries : List Entry) : Except BadField (List Fragment) := fragmentsFrom 0 entries

theorem fragmentsFrom_length {first : Nat} {entries : List Entry} {fragments : List Fragment}
    (h : fragmentsFrom first entries = .ok fragments) : fragments.length = entries.length := by
  induction entries generalizing first fragments with
  | nil => simp only [fragmentsFrom, Except.ok.injEq] at h; simp [← h]
  | cons entry entries ih =>
    rw [fragmentsFrom] at h
    split at h <;> simp only [Except.ok.injEq, reduceCtorEq] at h
    rename_i hrest
    simp [← h, ih hrest]

/-- Every entry becomes one fragment. -/
theorem fragments_length {entries : List Entry} {found : List Fragment}
    (h : fragments entries = .ok found) : found.length = entries.length :=
  fragmentsFrom_length h

end FragmentFile

end ScreenedQuery
