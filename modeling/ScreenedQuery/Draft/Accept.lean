import ScreenedQuery.Backend

/-!
# The rules of a draft

A draft takes fragments one at a time. A filter that opens the chain must not follow one directly,
a filter that continues it needs one before it, and every text and field name has to pass the
screen of the backend. The filter of a target counts when no filter stands before it.

## Main definitions

* `screenText`, `screenFilter`: the screen's verdict on a raw and on a structured filter
* `Draft.chainRule`: the rule on the order of filters
* `Draft.accept`: the draft with a fragment added
* `Draft.drain`: the draft with fragments added until one is refused

## Main results

* `Draft.drain_append`: fragments can be added in portions
* `Draft.drain_consumed`: no fragment is lost, and none is counted twice
-/

namespace ScreenedQuery

/-- The verdict on a raw filter: it needs a backend, and the backend must not flag it. -/
def screenText (backend : Option Backend) (kind : Kind) (text : String) :
    Except QueryError Unit :=
  match backend with
  | none => .error .backendMissing
  | some backend => if backend.flagsText text then .error (.injection kind text) else .ok ()

/-- The verdict on a structured filter: unless it is empty it needs a backend, and the first field
that the backend flags is named. -/
def screenFilter (backend : Option Backend) (kind : Kind) (filter : Filter) :
    Except QueryError Unit :=
  -- An empty filter asks for nothing, so that it needs no backend.
  if filter.isEmpty then .ok ()
  else match backend with
    | none => .error .backendMissing
    | some backend =>
      match filter.keys.find? backend.flagsField with
      | some field => .error (.injection kind field)
      | none => .ok ()

namespace Draft

/-- **The rule on the order of filters.** -/
def chainRule (draft : Draft) (kind : Kind) : Link → Except QueryError Unit
  | .start =>
    if draft.previous.isFilter then .error (.chainCorrupted draft.previous kind) else .ok ()
  | .and | .or =>
    if draft.filtered then .ok () else .error (.dependencyMissing kind (.structured .start))

/-- Appends a structured filter, its values moved into the draft. -/
def addFilter (draft : Draft) (link : Link) (filter : Filter) : Draft :=
  let (bindings, draft) := draft.bind filter
  draft.push (.filter link bindings)

/-- Remembers a filter that opens the chain. -/
def mark (draft : Draft) (link : Link) : Draft :=
  { draft with filtered := draft.filtered || link == .start }

/-- What a fragment adds to a draft, or why it is refused. -/
def extend (draft : Draft) (backend : Option Backend) (fragment : Fragment) :
    Except QueryError Draft :=
  match fragment with
  | .structured link filter => do
    draft.chainRule fragment.kind link
    screenFilter backend fragment.kind filter
    return (draft.addFilter link filter).mark link
  | .raw link text => do
    draft.chainRule fragment.kind link
    screenText backend fragment.kind text
    return (draft.push (.raw link text)).mark link
  | .setTarget filter target => do
    -- Behind a filter that opened the chain the filter of a target is neither screened nor kept.
    let draft ←
      if draft.filtered then pure draft
      else do
        screenFilter backend fragment.kind filter
        pure (draft.addFilter .start filter)
    return { draft.push .setTarget with output := some target }
  | .misc payload => return draft.push (.misc payload)

/-- **The draft with a fragment added**, or why the fragment is refused. -/
def accept (draft : Draft) (backend : Option Backend) (fragment : Fragment) :
    Except QueryError Draft :=
  (draft.extend backend fragment).map fun draft =>
    { draft with current := fragment.kind, previous := fragment.kind }

/-- The draft after a fragment was refused: it is poisoned. -/
def refuse (draft : Draft) (fragment : Fragment) : Draft :=
  { draft with current := fragment.kind, poisoned := true }

/-- What becomes of fragments that are added one after the other. -/
structure Drained where
  /-- The draft with the accepted fragments. -/
  draft : Draft
  /-- How many fragments were accepted. -/
  accepted : Nat
  /-- Why a fragment was refused, if one was. -/
  error : Option QueryError
  /-- The fragments behind the refused one. -/
  rest : List Fragment

/-- **Adds fragments until one is refused.** -/
def drain (backend : Option Backend) (draft : Draft) : List Fragment → Drained
  | [] => ⟨draft, 0, none, []⟩
  | fragment :: rest =>
    match draft.accept backend fragment with
    | .error error => ⟨draft.refuse fragment, 0, some error, rest⟩
    | .ok draft =>
      let drained := drain backend draft rest
      { drained with accepted := drained.accepted + 1 }

/-- Fragments can be added in portions: if the first portion is accepted, the second goes to the
draft that the first has left. -/
theorem drain_append (backend : Option Backend) (draft : Draft) (first second : List Fragment) :
    drain backend draft (first ++ second) =
      let before := drain backend draft first
      match before.error with
      | some _ => { before with rest := before.rest ++ second }
      | none =>
        let after := drain backend before.draft second
        { after with accepted := before.accepted + after.accepted } := by
  induction first generalizing draft with
  | nil => simp [drain]
  | cons fragment first ih =>
    rw [List.cons_append, drain, drain]
    cases draft.accept backend fragment with
    | error error => rfl
    | ok draft =>
      simp only [ih]
      cases (drain backend draft first).error <;> simp
      omega

/-- No fragment is lost, and none is counted twice. -/
theorem drain_consumed (backend : Option Backend) (draft : Draft) (fragments : List Fragment) :
    let drained := drain backend draft fragments
    fragments.length =
      drained.accepted + (if drained.error.isSome then 1 else 0) + drained.rest.length := by
  induction fragments generalizing draft with
  | nil => simp [drain]
  | cons fragment rest ih =>
    rw [drain]
    cases draft.accept backend fragment with
    | error error => simp; omega
    | ok draft =>
      have := ih draft
      simp only [List.length_cons]
      omega

end Draft

end ScreenedQuery
