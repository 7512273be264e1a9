import ScreenedQuery.Json.Shape
import ScreenedQuery.Value.Encoding

/-!
# Fragments

A query is put together from fragments: filters that open or continue a chain of conditions, the
declaration of a target, and payloads for the backend. A filter is structured, a map from fields
to the values they equal, or raw, a text.

## Main definitions

* `Filter`, `Record`: maps from fields to values, as conditions and as rows
* `Link`: how a filter joins the chain
* `Kind`: the kinds of fragments, and of a draft nothing has been done to
* `Target`: where the rows of a query go
* `Fragment`: the parts of a query

## Main results

* `Kind.ofName?_name`: a kind is found by its name
-/

namespace ScreenedQuery

/-- A structured filter: every field equals its value. -/
abbrev Filter := FieldMap Value

/-- A row: the values of its fields. -/
abbrev Record := FieldMap Value

/-- A map from fields to values in JSON: an object with the fields in order. -/
def Filter.toJson (filter : Filter) : Json :=
  .object (filter.entries.map fun entry => (entry.1, entry.2.toJson))

/-- The filter of a JSON object of values; the last value of a field wins. -/
def Filter.ofJson? : Json → Option Filter
  | .object members =>
    (members.mapM fun member => (Value.ofJson? member.2).map (member.1, ·)).map FieldMap.ofList
  | _ => none

/-- How a filter joins the chain of conditions. -/
inductive Link
  /-- It opens the chain. -/
  | start
  /-- It holds together with what stands before it. -/
  | and
  /-- It holds instead of what stands before it. -/
  | or
  deriving DecidableEq, Inhabited

/-- The kinds of fragments. -/
inductive Kind
  /-- No fragment at all. -/
  | unknown
  | structured (link : Link)
  | raw (link : Link)
  | setTarget
  | misc
  deriving DecidableEq, Inhabited

namespace Kind

def name : Kind → String
  | unknown => "unknown"
  | structured .start => "where"
  | raw .start => "where_str"
  | structured .and => "and"
  | raw .and => "and_str"
  | structured .or => "or"
  | raw .or => "or_str"
  | setTarget => "set_target"
  | misc => "misc"

/-- All kinds, in the order of their declaration in reports. -/
def all : List Kind :=
  [unknown, structured .start, raw .start, structured .and, raw .and, structured .or, raw .or,
    setTarget, misc]

def ofName? (name : String) : Option Kind := all.find? (·.name == name)

/-- The kinds that open a chain of conditions. -/
def isFilter : Kind → Bool
  | structured .start | raw .start => true
  | _ => false

/-- The kinds that continue a chain of conditions. -/
def isConnector : Kind → Bool
  | structured .and | structured .or | raw .and | raw .or => true
  | _ => false

/-- The kinds whose condition is a text. -/
def isRaw : Kind → Bool
  | raw _ => true
  | _ => false

/-- The kind that a JSON value names. -/
def ofJson? (json : Json) : Option Kind := json.choice?.bind ofName?

/-- A kind in JSON: its name. -/
def toJson (kind : Kind) : Json := .string kind.name

/-- A kind is found by its name. -/
@[simp] theorem ofName?_name (kind : Kind) : ofName? kind.name = some kind := by
  rcases kind with _ | link | link | _ | _ <;> try cases link
  all_goals decide

end Kind

/-- Where the rows of a query go: the collection they come from, and the buffer that all copies
of the target share. -/
structure Target where
  /-- The name of the collection or table. -/
  name : String
  /-- The number of the row buffer. -/
  buffer : Nat
  deriving DecidableEq

/-- **A part of a query.** -/
inductive Fragment
  | structured (link : Link) (filter : Filter)
  | raw (link : Link) (text : String)
  /-- The target; its filter counts only when no filter stands before it. -/
  | setTarget (filter : Filter) (target : Target)
  /-- A payload that the backend understands. -/
  | misc (payload : Json)

def Fragment.kind : Fragment → Kind
  | structured link _ => .structured link
  | raw link _ => .raw link
  | setTarget _ _ => .setTarget
  | misc _ => .misc

/-- A target without a filter of its own. -/
def Fragment.find (target : Target) : Fragment := setTarget .empty target

end ScreenedQuery
