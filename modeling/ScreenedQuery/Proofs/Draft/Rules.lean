import Mathlib.Data.List.Induction
import ScreenedQuery.Draft.Accept
import ScreenedQuery.Proofs.Text.ByteOrder

/-!
# The rules of a draft, by the fragments before

What `Draft.accept` asks of a fragment depends on a draft only through the fragments that the draft
has accepted. Here the rules are stated of these fragments, without a draft, and `Draft.accept` is
shown to decide them on the draft of the fragments before.

## Main definitions

* `Fragment.filterBehind`: the structured filter that a fragment brings to a draft
* `Draft.Chains`, `Draft.Admits`: the rules
* `Draft.Refuses`: why a fragment that breaks a rule is refused
* `Draft.collect`: the draft of fragments all of which were accepted

## Main results

* `Draft.accept_collect_eq_ok_iff`, `Draft.accept_collect_eq_error_iff`: the rules decide
-/

namespace ScreenedQuery

/-! ## What a fragment brings -/

/-- Whether a filter that opens the chain is among fragments. -/
def opened (before : List Fragment) : Bool := before.any (·.kind.isFilter)

@[simp] theorem opened_nil : opened [] = false := rfl

@[simp] theorem opened_append (before after : List Fragment) :
    opened (before ++ after) = (opened before || opened after) := List.any_append

theorem opened_eq_true_iff {before : List Fragment} :
    opened before = true ↔ ∃ earlier ∈ before, earlier.kind.isFilter = true := List.any_eq_true

/-- The text of a raw filter. -/
def Fragment.text? : Fragment → Option String
  | raw _ text => some text
  | _ => none

/-- The structured filter that a fragment brings behind others. The filter of a target counts only
when no filter stands before it. -/
def Fragment.filterBehind (before : List Fragment) : Fragment → Filter
  | structured _ filter => filter
  | setTarget filter _ => if opened before then .empty else filter
  | _ => .empty

namespace Draft

/-! ## The rules -/

/-- The rule on the order of filters: none that opens the chain stands directly behind another, and
none that continues it stands without one that opens it somewhere before. -/
structure Chains (before : List Fragment) (fragment : Fragment) : Prop where
  start : fragment.kind.isFilter →
    ∀ previous, before.getLast? = some previous → previous.kind.isFilter = false
  continuation : fragment.kind.isConnector → ∃ earlier ∈ before, earlier.kind.isFilter = true

/-- **The rules on a fragment behind others**: it stands in order, and its text and its fields pass
the screen of a backend. -/
structure Admits (backend : Option Backend) (before : List Fragment) (fragment : Fragment) : Prop
    extends Chains before fragment where
  text : ∀ text, fragment.text? = some text → ∃ b ∈ backend, b.flagsText text = false
  fields : ∀ field ∈ (fragment.filterBehind before).keys, ∃ b ∈ backend, b.flagsField field = false

/-- **Why a fragment is refused behind others.** Its place in the chain comes before the lack of a
backend, and that before the screen. Of the fields that are flagged the first in the order of bytes
is named. -/
inductive Refuses (backend : Option Backend) (before : List Fragment) (fragment : Fragment) :
    QueryError → Prop
  /-- It opens the chain directly behind a fragment that did. -/
  | chain {previous : Fragment} (start : fragment.kind.isFilter)
      (last : before.getLast? = some previous) (again : previous.kind.isFilter) :
      Refuses backend before fragment (.chainCorrupted previous.kind fragment.kind)
  /-- It continues a chain that was not opened. -/
  | dependency (continuation : fragment.kind.isConnector)
      (unopened : ∀ earlier ∈ before, earlier.kind.isFilter = false) :
      Refuses backend before fragment (.dependencyMissing fragment.kind (.structured .start))
  /-- There is something to screen, and no backend. -/
  | backend (chains : Chains before fragment) (missing : backend = none)
      (screened : fragment.text?.isSome ∨ (fragment.filterBehind before).keys ≠ []) :
      Refuses backend before fragment .backendMissing
  /-- Its text is flagged. -/
  | text {b : Backend} {text : String} (chains : Chains before fragment) (found : b ∈ backend)
      (own : fragment.text? = some text) (flagged : b.flagsText text) :
      Refuses backend before fragment (.injection fragment.kind text)
  /-- A field is flagged, and none before it. -/
  | field {b : Backend} {field : String} (chains : Chains before fragment) (found : b ∈ backend)
      (own : field ∈ (fragment.filterBehind before).keys) (flagged : b.flagsField field)
      (least : ∀ other ∈ (fragment.filterBehind before).keys, b.flagsField other →
        bytes field ≤ bytes other) :
      Refuses backend before fragment (.injection fragment.kind field)

/-! ## The draft of accepted fragments -/

/-- What an accepted fragment adds to a draft. -/
def addContent (draft : Draft) : Fragment → Draft
  | .structured link filter => (draft.addFilter link filter).mark link
  | .raw link text => (draft.push (.raw link text)).mark link
  | .setTarget filter target =>
    { (if draft.filtered then draft else draft.addFilter .start filter).push .setTarget with
      output := some target }
  | .misc payload => draft.push (.misc payload)

/-- The draft behind an accepted fragment. -/
def add (draft : Draft) (fragment : Fragment) : Draft :=
  { draft.addContent fragment with current := fragment.kind, previous := fragment.kind }

/-- **The draft of fragments** all of which were accepted. -/
def collect (fragments : List Fragment) : Draft := fragments.foldl add .empty

@[simp] theorem collect_nil : collect [] = .empty := rfl

@[simp] theorem collect_append_singleton (before : List Fragment) (fragment : Fragment) :
    collect (before ++ [fragment]) = (collect before).add fragment := by
  simp [collect]

@[simp] theorem add_previous (draft : Draft) (fragment : Fragment) :
    (draft.add fragment).previous = fragment.kind := rfl

@[simp] theorem add_poisoned (draft : Draft) (fragment : Fragment) :
    (draft.add fragment).poisoned = draft.poisoned := by
  cases fragment with
  | setTarget filter target => simp only [add, addContent]; split <;> rfl
  | _ => rfl

@[simp] theorem add_filtered (draft : Draft) (fragment : Fragment) :
    (draft.add fragment).filtered = (draft.filtered || fragment.kind.isFilter) := by
  cases fragment with
  | structured link filter => cases link <;> rfl
  | raw link text => cases link <;> rfl
  | setTarget filter target =>
    simp only [add, addContent, push, Fragment.kind, Kind.isFilter, Bool.or_false]
    split <;> rfl
  | misc payload => simp [add, addContent, push, Fragment.kind, Kind.isFilter]

@[simp] theorem collect_poisoned (fragments : List Fragment) :
    (collect fragments).poisoned = false := by
  induction fragments using List.reverseRecOn with
  | nil => rfl
  | append_singleton before fragment ih => rw [collect_append_singleton, add_poisoned, ih]

@[simp] theorem collect_filtered (fragments : List Fragment) :
    (collect fragments).filtered = opened fragments := by
  induction fragments using List.reverseRecOn with
  | nil => rfl
  | append_singleton before fragment ih =>
    rw [collect_append_singleton, add_filtered, ih, opened_append]
    simp [opened]

/-- The kind accepted last is that of the last fragment. -/
theorem collect_previous (fragments : List Fragment) :
    (collect fragments).previous = (fragments.getLast?.map Fragment.kind).getD .unknown := by
  rcases List.eq_nil_or_concat fragments with rfl | ⟨before, fragment, rfl⟩
  · rfl
  · simp

/-! ## The rules decide -/

/-! ### The place in the chain -/

theorem previous_isFilter_iff {before : List Fragment} :
    (collect before).previous.isFilter = true ↔
      ∃ previous, before.getLast? = some previous ∧ previous.kind.isFilter = true := by
  rw [collect_previous]
  cases before.getLast? with
  | none => simp [Kind.isFilter]
  | some previous => simp

/-- The verdict on the place of a fragment in the chain. -/
def orderVerdict (before : List Fragment) (fragment : Fragment) : Except QueryError Unit :=
  match fragment with
  | .structured link _ | .raw link _ => (collect before).chainRule fragment.kind link
  | _ => .ok ()

theorem orderVerdict_of_start {before : List Fragment} {fragment : Fragment}
    (h : fragment.kind.isFilter = true) :
    orderVerdict before fragment =
      if (collect before).previous.isFilter then
        .error (.chainCorrupted (collect before).previous fragment.kind)
      else .ok () := by
  -- A fragment that opens the chain is a filter with the link `start`.
  rcases fragment with ⟨_ | _ | _, _⟩ | ⟨_ | _ | _, _⟩ | _ | _ <;>
    first | rfl | simp [Fragment.kind, Kind.isFilter] at h

theorem orderVerdict_of_continuation {before : List Fragment} {fragment : Fragment}
    (h : fragment.kind.isConnector = true) :
    orderVerdict before fragment =
      if opened before then .ok ()
      else .error (.dependencyMissing fragment.kind (.structured .start)) := by
  rw [← collect_filtered]
  rcases fragment with ⟨_ | _ | _, _⟩ | ⟨_ | _ | _, _⟩ | _ | _ <;>
    first | rfl | simp [Fragment.kind, Kind.isConnector] at h

theorem orderVerdict_of_neither {before : List Fragment} {fragment : Fragment}
    (hfilter : fragment.kind.isFilter = false) (hconnector : fragment.kind.isConnector = false) :
    orderVerdict before fragment = .ok () := by
  rcases fragment with ⟨_ | _ | _, _⟩ | ⟨_ | _ | _, _⟩ | _ | _ <;>
    first | rfl | simp_all [Fragment.kind, Kind.isFilter, Kind.isConnector]

/-- A fragment that opens the chain does not continue it. -/
theorem isConnector_of_isFilter {kind : Kind} (h : kind.isFilter = true) :
    kind.isConnector = false := by
  rcases kind with _ | ⟨_ | _ | _⟩ | ⟨_ | _ | _⟩ | _ | _ <;> first | rfl | simp [Kind.isFilter] at h

theorem orderVerdict_eq_ok_iff {before : List Fragment} {fragment : Fragment} :
    orderVerdict before fragment = .ok () ↔ Chains before fragment := by
  by_cases hfilter : fragment.kind.isFilter = true
  · -- It opens the chain: what the draft recalls of the last fragment decides.
    have hok : orderVerdict before fragment = .ok () ↔
        ¬ (collect before).previous.isFilter = true := by
      rw [orderVerdict_of_start hfilter]
      split <;> simp [*]
    rw [hok, previous_isFilter_iff]
    constructor
    · refine fun hnone => ⟨fun _ previous hlast => ?_, fun hconnector => ?_⟩
      · simpa using fun hprevious => hnone ⟨previous, hlast, hprevious⟩
      · simp [isConnector_of_isFilter hfilter] at hconnector
    · rintro hchains ⟨previous, hlast, hprevious⟩
      simp [hchains.start hfilter previous hlast] at hprevious
  · by_cases hconnector : fragment.kind.isConnector = true
    · -- It continues the chain: whether the draft has seen a filter decides.
      have hok : orderVerdict before fragment = .ok () ↔ opened before = true := by
        rw [orderVerdict_of_continuation hconnector]
        split <;> simp [*]
      rw [hok, opened_eq_true_iff]
      exact ⟨fun hopened => ⟨fun h => absurd h hfilter, fun _ => hopened⟩,
        fun hchains => hchains.continuation hconnector⟩
    · rw [orderVerdict_of_neither (by simpa using hfilter) (by simpa using hconnector)]
      simpa using ⟨fun h => absurd h hfilter, fun h => absurd h hconnector⟩

theorem orderVerdict_eq_error_iff {before : List Fragment} {fragment : Fragment}
    {error : QueryError} :
    orderVerdict before fragment = .error error ↔
      (fragment.kind.isFilter = true ∧ ∃ previous, before.getLast? = some previous ∧
          previous.kind.isFilter = true ∧ error = .chainCorrupted previous.kind fragment.kind) ∨
        (fragment.kind.isConnector = true ∧ (∀ earlier ∈ before, earlier.kind.isFilter = false) ∧
          error = .dependencyMissing fragment.kind (.structured .start)) := by
  by_cases hfilter : fragment.kind.isFilter = true
  · rw [orderVerdict_of_start hfilter, collect_previous]
    cases before.getLast? with
    | none => simp [Kind.isFilter, isConnector_of_isFilter hfilter]
    | some previous =>
      by_cases hprevious : previous.kind.isFilter = true <;>
        simp [hprevious, hfilter, isConnector_of_isFilter hfilter, eq_comm (a := error)]
  · by_cases hconnector : fragment.kind.isConnector = true
    · rw [orderVerdict_of_continuation hconnector]
      by_cases hopened : opened before = true
      · obtain ⟨earlier, hmem, hearlier⟩ := opened_eq_true_iff.mp hopened
        simpa [hopened, hfilter, hconnector] using fun hnone =>
          absurd hearlier (by simp [hnone earlier hmem])
      · have hnone : ∀ earlier ∈ before, earlier.kind.isFilter = false := by
          simpa [opened] using hopened
        simpa [hopened, hfilter, hconnector, eq_comm (a := error)] using fun _ => hnone
    · rw [orderVerdict_of_neither (by simpa using hfilter) (by simpa using hconnector)]
      simp [hfilter, hconnector]

/-! ### The screen -/

theorem screenText_eq_ok_iff {backend : Option Backend} {kind : Kind} {text : String} :
    screenText backend kind text = .ok () ↔ ∃ b ∈ backend, b.flagsText text = false := by
  cases backend with
  | none => simp [screenText]
  | some b => simp [screenText]

theorem screenText_eq_error_iff {backend : Option Backend} {kind : Kind} {text : String}
    {error : QueryError} :
    screenText backend kind text = .error error ↔
      (backend = none ∧ error = .backendMissing) ∨
        ∃ b ∈ backend, b.flagsText text = true ∧ error = .injection kind text := by
  cases backend with
  | none => simp [screenText, eq_comm (a := error)]
  | some b => by_cases h : b.flagsText text = true <;> simp [screenText, h, eq_comm (a := error)]

/-- In a map, what is found first is what is least. -/
theorem find?_keys_eq_some_iff {α : Type} {map : FieldMap α} {flags : String → Bool}
    {field : String} :
    map.keys.find? flags = some field ↔
      field ∈ map.keys ∧ flags field = true ∧
        ∀ other ∈ map.keys, flags other = true → bytes field ≤ bytes other := by
  simp only [← le_iff_bytes_le]
  rw [List.find?_eq_some_iff_append]
  constructor
  · -- What stands behind the first flagged field is greater, since the fields are sorted.
    rintro ⟨hflag, before, after, hkeys, hbefore⟩
    have hsorted := map.keys_pairwise
    rw [hkeys, List.pairwise_append, List.pairwise_cons] at hsorted
    refine ⟨by simp [hkeys], hflag, fun other hmem hother => ?_⟩
    rw [hkeys, List.mem_append, List.mem_cons] at hmem
    rcases hmem with hmem | rfl | hmem
    · exact absurd hother (by simpa using hbefore other hmem)
    · exact String.le_refl other
    · have hlt : field < other := hsorted.2.1.1 other hmem
      exact String.not_lt.mp fun h => String.lt_irrefl _ (String.lt_trans hlt h)
  · -- What stands before the least flagged field is lesser, and so not flagged.
    rintro ⟨hmem, hflag, hleast⟩
    obtain ⟨before, after, hkeys⟩ := List.append_of_mem hmem
    refine ⟨hflag, before, after, hkeys, fun other hother => ?_⟩
    have hsorted := map.keys_pairwise
    rw [hkeys, List.pairwise_append] at hsorted
    have hlt : other < field := hsorted.2.2 other hother field List.mem_cons_self
    by_contra hflagged
    exact absurd hlt (String.not_lt.mpr
      (hleast other (by simp [hkeys, hother]) (by simpa using hflagged)))

theorem isEmpty_iff_keys {filter : Filter} : filter.isEmpty = true ↔ filter.keys = [] := by
  simp [FieldMap.isEmpty, FieldMap.keys]

theorem screenFilter_none {kind : Kind} {filter : Filter} :
    screenFilter none kind filter =
      if filter.keys = [] then .ok () else .error .backendMissing := by
  simp only [screenFilter, isEmpty_iff_keys]

/-- With a backend the empty filter needs no rule of its own. -/
theorem screenFilter_some {b : Backend} {kind : Kind} {filter : Filter} :
    screenFilter (some b) kind filter =
      match filter.keys.find? b.flagsField with
      | some field => .error (.injection kind field)
      | none => .ok () := by
  simp only [screenFilter, isEmpty_iff_keys]
  split
  · simp [*]
  · rfl

theorem screenFilter_eq_ok_iff {backend : Option Backend} {kind : Kind} {filter : Filter} :
    screenFilter backend kind filter = .ok () ↔
      ∀ field ∈ filter.keys, ∃ b ∈ backend, b.flagsField field = false := by
  cases backend with
  | none => simp [screenFilter_none, List.eq_nil_iff_forall_not_mem]
  | some b =>
    rw [screenFilter_some]
    cases hfind : filter.keys.find? b.flagsField with
    | none => simpa using hfind
    | some field =>
      have hflagged := List.find?_some hfind
      simpa using ⟨field, List.mem_of_find?_eq_some hfind, hflagged⟩

theorem screenFilter_eq_error_iff {backend : Option Backend} {kind : Kind} {filter : Filter}
    {error : QueryError} :
    screenFilter backend kind filter = .error error ↔
      (backend = none ∧ filter.keys ≠ [] ∧ error = .backendMissing) ∨
        ∃ b ∈ backend, ∃ field ∈ filter.keys, b.flagsField field = true ∧
          (∀ other ∈ filter.keys, b.flagsField other = true → bytes field ≤ bytes other) ∧
          error = .injection kind field := by
  cases backend with
  | none =>
    by_cases hkeys : filter.keys = [] <;>
      simp [screenFilter_none, hkeys, eq_comm (a := error)]
  | some b =>
    have hfirst : screenFilter (some b) kind filter = .error error ↔
        ∃ field, filter.keys.find? b.flagsField = some field ∧ error = .injection kind field := by
      rw [screenFilter_some]
      cases filter.keys.find? b.flagsField <;> simp [eq_comm (a := error)]
    rw [hfirst]
    simp [find?_keys_eq_some_iff, and_assoc]

/-- The verdict on the text of a fragment. -/
def textVerdict (backend : Option Backend) (fragment : Fragment) : Except QueryError Unit :=
  match fragment.text? with
  | some text => screenText backend fragment.kind text
  | none => .ok ()

/-- The verdict on the fields of a fragment. -/
def fieldsVerdict (backend : Option Backend) (before : List Fragment) (fragment : Fragment) :
    Except QueryError Unit :=
  screenFilter backend fragment.kind (fragment.filterBehind before)

/-- No fragment has both a text and fields. -/
theorem text?_eq_none_or_keys_eq_nil (before : List Fragment) (fragment : Fragment) :
    fragment.text? = none ∨ (fragment.filterBehind before).keys = [] := by
  cases fragment <;> simp [Fragment.text?, Fragment.filterBehind]

/-- **A fragment is accepted when the three verdicts on it are.** -/
theorem accept_collect (backend : Option Backend) (before : List Fragment) (fragment : Fragment) :
    (collect before).accept backend fragment = (do
      orderVerdict before fragment
      textVerdict backend fragment
      fieldsVerdict backend before fragment
      return collect (before ++ [fragment])) := by
  rw [collect_append_singleton]
  -- Each kind makes only some of the checks; the verdicts it leaves out are `ok`.
  cases fragment with
  | structured link filter =>
    simp only [accept, extend, orderVerdict, textVerdict, fieldsVerdict, Fragment.text?,
      Fragment.filterBehind]
    cases (collect before).chainRule (Fragment.structured link filter).kind link with
    | error error => rfl
    | ok => cases screenFilter backend (Fragment.structured link filter).kind filter <;> rfl
  | raw link text =>
    simp only [accept, extend, orderVerdict, textVerdict, fieldsVerdict, Fragment.text?,
      Fragment.filterBehind]
    cases (collect before).chainRule (Fragment.raw link text).kind link with
    | error error => rfl
    | ok => cases screenText backend (Fragment.raw link text).kind text <;> rfl
  | setTarget filter target =>
    simp only [accept, extend, orderVerdict, textVerdict, fieldsVerdict, Fragment.text?,
      Fragment.filterBehind, add, addContent, collect_filtered]
    -- Behind a filter the filter of a target is not looked at.
    split
    · rfl
    · cases screenFilter backend (Fragment.setTarget filter target).kind filter <;> rfl
  | misc payload => rfl

theorem check_eq_ok_iff {α : Type} {check : Except QueryError Unit} {next : Except QueryError α}
    {a : α} : (do check; next) = .ok a ↔ check = .ok () ∧ next = .ok a := by
  cases check with
  | error => exact ⟨nofun, nofun⟩
  | ok => exact ⟨fun h => ⟨rfl, h⟩, fun h => h.2⟩

theorem check_eq_error_iff {α : Type} {check : Except QueryError Unit}
    {next : Except QueryError α} {error : QueryError} :
    (do check; next) = .error error ↔
      check = .error error ∨ check = .ok () ∧ next = .error error := by
  cases check with
  | error cause =>
    constructor
    · exact fun h => .inl (congrArg _ (Except.error.inj h))
    · rintro (h | ⟨h, -⟩)
      · exact congrArg _ (Except.error.inj h)
      · exact nomatch h
  | ok => exact ⟨fun h => .inr ⟨rfl, h⟩, fun h => (h.resolve_left nofun).2⟩

theorem textVerdict_eq_ok_iff {backend : Option Backend} {fragment : Fragment} :
    textVerdict backend fragment = .ok () ↔
      ∀ text, fragment.text? = some text → ∃ b ∈ backend, b.flagsText text = false := by
  unfold textVerdict
  cases fragment.text? with
  | none => simp
  | some text => simp [screenText_eq_ok_iff]

theorem textVerdict_eq_error_iff {backend : Option Backend} {fragment : Fragment}
    {error : QueryError} :
    textVerdict backend fragment = .error error ↔
      ∃ text, fragment.text? = some text ∧ ((backend = none ∧ error = .backendMissing) ∨
        ∃ b ∈ backend, b.flagsText text = true ∧ error = .injection fragment.kind text) := by
  unfold textVerdict
  cases fragment.text? with
  | none => simp
  | some text => simp [screenText_eq_error_iff]

/-- **The rules decide which fragments are accepted.** -/
theorem accept_collect_eq_ok_iff {backend : Option Backend} {before : List Fragment}
    {fragment : Fragment} {draft : Draft} :
    (collect before).accept backend fragment = .ok draft ↔
      Admits backend before fragment ∧ draft = collect (before ++ [fragment]) := by
  rw [accept_collect, check_eq_ok_iff, check_eq_ok_iff, check_eq_ok_iff, orderVerdict_eq_ok_iff,
    textVerdict_eq_ok_iff, fieldsVerdict, screenFilter_eq_ok_iff]
  constructor
  · rintro ⟨hchains, htext, hfields, hdraft⟩
    exact ⟨⟨hchains, htext, hfields⟩, (Except.ok.inj hdraft).symm⟩
  · rintro ⟨⟨hchains, htext, hfields⟩, rfl⟩
    exact ⟨hchains, htext, hfields, rfl⟩

/-- **The rules decide why a fragment is refused.** -/
theorem accept_collect_eq_error_iff {backend : Option Backend} {before : List Fragment}
    {fragment : Fragment} {error : QueryError} :
    (collect before).accept backend fragment = .error error ↔
      Refuses backend before fragment error := by
  rw [accept_collect, check_eq_error_iff, check_eq_error_iff, check_eq_error_iff,
    orderVerdict_eq_error_iff, orderVerdict_eq_ok_iff, textVerdict_eq_error_iff,
    textVerdict_eq_ok_iff, fieldsVerdict, screenFilter_eq_error_iff]
  -- The causes in the order of the checks: its place in the chain, its text, its fields.
  constructor
  · rintro ((⟨hfilter, previous, hlast, hprevious, rfl⟩ | ⟨hconnector, hnone, rfl⟩) |
      ⟨hchains, ⟨text, htext, ⟨hnone, rfl⟩ | ⟨b, hb, hflagged, rfl⟩⟩ |
        ⟨_, (⟨hnone, hkeys, rfl⟩ | ⟨b, hb, field, hmem, hflagged, hleast, rfl⟩) | ⟨_, h⟩⟩⟩)
    · exact .chain hfilter hlast hprevious
    · exact .dependency hconnector hnone
    · exact .backend hchains hnone (.inl (by simp [htext]))
    · exact .text hchains hb htext hflagged
    · exact .backend hchains hnone (.inr hkeys)
    · exact .field hchains hb hmem hflagged hleast
    · exact nomatch h
  · intro h
    cases h with
    | chain hfilter hlast hprevious =>
      exact .inl (.inl ⟨hfilter, _, hlast, hprevious, rfl⟩)
    | dependency hconnector hnone => exact .inl (.inr ⟨hconnector, hnone, rfl⟩)
    | backend hchains hnone hscreened =>
      refine .inr ⟨hchains, ?_⟩
      cases htext : fragment.text? with
      | some text => exact .inl ⟨text, rfl, .inl ⟨hnone, rfl⟩⟩
      | none =>
        have hkeys := hscreened.resolve_left (by simp [htext])
        exact .inr ⟨by simp, .inl (.inl ⟨hnone, hkeys, rfl⟩)⟩
    | text hchains hb htext hflagged =>
      exact .inr ⟨hchains, .inl ⟨_, htext, .inr ⟨_, hb, hflagged, rfl⟩⟩⟩
    | field hchains hb hmem hflagged hleast =>
      -- A fragment with fields has no text that could have been flagged before them.
      have htext : fragment.text? = none :=
        (text?_eq_none_or_keys_eq_nil before fragment).resolve_right (List.ne_nil_of_mem hmem)
      exact .inr ⟨hchains, .inr ⟨by simp [htext],
        .inl (.inr ⟨_, hb, _, hmem, hflagged, hleast, rfl⟩)⟩⟩

end Draft

end ScreenedQuery
