import ScreenedQuery.Proofs.Engine.Sync
import ScreenedQuery.Proofs.Sql.Conditions

/-!
# The groups of conditions

Every condition stands between parentheses of its own. The parentheses of raw filters belong
together, and the condition of the statement ends outside of quoted runs and of parentheses, when
the text of every raw filter closes the quoted runs that it opens. The screen does not ask for this:
it counts each kind of quotes by itself and lets the last run of a text stand open.

## Main definitions

* `Sql.leads`: what stands before the group of each condition
* `Sql.groups`: the clauses that have a condition, with what stands before their groups
* `Sql.GroupsHold`: no raw filter leaves its group
* `Sql.Composed`: a query and the fragments that it is composed of

## Main results

* `Sql.groupsHold_iff`: the groups hold when the raw filters are closed
* `Sql.composed_of_sync`: what is known of a query whose fragments a sync has accepted
* `Sql.sync_compile_groupsHold_iff`: the same of the fragments of a sync
-/

namespace ScreenedQuery.Sql

open Screen (nests)

/-! ## What stands before a group -/

/-- What stands before the groups when further conditions are joined to a text, as in `joinFrom`:
a parenthesis before the whole text stands before all its groups. -/
def leadsFrom (leads : List (List Char)) (joined : List Char) (whole : Bool) :
    List (Link × List Char) → List (List Char)
  | [] => leads
  | (link, condition) :: rest =>
    let before := (if whole then joined else parenthesize joined) ++ connective link
    let leads := if whole then leads else leads.map ('(' :: ·)
    leadsFrom (leads ++ [before]) (before ++ parenthesize condition) false rest

/-- **What stands before the group of each condition** in the text of joined conditions. -/
def leads : List (Link × List Char) → List (List Char)
  | [] => []
  | (_, condition) :: rest => leadsFrom [[]] (parenthesize condition) true rest

/-- A text starts with what stands before the group of a condition, and the group. -/
def Leads (text lead : List Char) (condition : Link × List Char) : Prop :=
  lead ++ parenthesize condition.2 <+: text

theorem Leads.append {text lead : List Char} {condition : Link × List Char}
    (h : Leads text lead condition) (after : List Char) : Leads (text ++ after) lead condition :=
  List.IsPrefix.trans h (List.prefix_append text after)

theorem Leads.behind {text lead : List Char} {condition : Link × List Char}
    (h : Leads text lead condition) (before : List Char) :
    Leads (before ++ text) (before ++ lead) condition := by
  rw [Leads, List.append_assoc]
  exact (List.prefix_append_right_inj before).mpr h

/-- One condition more. -/
theorem forall₂_leads_join {leads : List (List Char)} {joined : List Char}
    {before : List (Link × List Char)} (h : List.Forall₂ (Leads joined) leads before)
    (whole : Bool) (link : Link) (condition : List Char) :
    let left := (if whole then joined else parenthesize joined) ++ connective link
    List.Forall₂ (Leads (left ++ parenthesize condition))
      ((if whole then leads else leads.map ('(' :: ·)) ++ [left])
      (before ++ [(link, condition)]) := by
  intro left
  refine List.rel_append ?_ (.cons (List.prefix_refl _) .nil)
  -- What was joined before stays at the start, or moves behind one parenthesis.
  cases whole with
  | true => exact h.imp fun lead condition hlead => (hlead.append _).append _
  | false =>
    refine List.forall₂_map_left_iff.mpr (h.imp fun lead condition hlead => ?_)
    exact (((hlead.append [')']).behind ['(']).append _).append _

theorem forall₂_leadsFrom {leads : List (List Char)} {joined : List Char} {whole : Bool}
    {before rest : List (Link × List Char)} (h : List.Forall₂ (Leads joined) leads before) :
    List.Forall₂ (Leads (joinFrom joined whole rest)) (leadsFrom leads joined whole rest)
      (before ++ rest) := by
  induction rest generalizing leads joined whole before with
  | nil => simpa [leadsFrom, joinFrom] using h
  | cons condition rest ih =>
    have hbefore : before ++ condition :: rest = before ++ [condition] ++ rest := by simp
    rw [hbefore]
    exact ih (forall₂_leads_join h whole condition.1 condition.2)

/-- **The groups of joined conditions stand where they are said to.** -/
theorem forall₂_leads (conditions : List (Link × List Char)) :
    List.Forall₂ (Leads (joinConditions conditions)) (leads conditions) conditions := by
  cases conditions with
  | nil => exact .nil
  | cons condition rest =>
    have hfirst : List.Forall₂ (Leads (parenthesize condition.2)) [[]] [condition] :=
      .cons (List.prefix_refl _) .nil
    exact forall₂_leadsFrom hfirst

/-! ## Scans of joined conditions -/

/-- A text that leaves no quoted run open, and closes nothing that stands open before it. -/
def Reaches (text : List Char) : Prop :=
  ∀ opened place, ∃ next, Scan.run ⟨none, opened⟩ place text = some ⟨none, next⟩

theorem Closed.reaches {text : List Char} (h : Closed text) : Reaches text :=
  fun opened place => ⟨opened, h.run opened place⟩

theorem Reaches.paren {text : List Char} (h : Reaches text) : Reaches ('(' :: text) :=
  fun opened place => h (place :: opened) (place + 1)

theorem Reaches.append {first second : List Char} (hfirst : Reaches first)
    (hsecond : Reaches second) : Reaches (first ++ second) := by
  intro opened place
  obtain ⟨next, hnext⟩ := hfirst opened place
  obtain ⟨last, hlast⟩ := hsecond next (place + first.length)
  exact ⟨last, by rw [run_append, hnext, Option.bind_some, hlast]⟩

theorem reaches_leadsFrom {leads : List (List Char)} {joined : List Char} {whole : Bool}
    {rest : List (Link × List Char)} (hleads : ∀ lead ∈ leads, Reaches lead)
    (hjoined : Closed joined) (h : ∀ condition ∈ rest, Closed condition.2) :
    ∀ lead ∈ leadsFrom leads joined whole rest, Reaches lead := by
  induction rest generalizing leads joined whole with
  | nil => exact hleads
  | cons condition rest ih =>
    rw [List.forall_mem_cons] at h
    have hleft := closed_left hjoined whole condition.1
    refine ih ?_ (hleft.append h.1.parenthesize) h.2
    rw [List.forall_mem_append, List.forall_mem_singleton]
    refine ⟨?_, hleft.reaches⟩
    cases whole with
    | true => exact hleads
    | false => exact List.forall_mem_map.mpr fun lead hlead => (hleads lead hlead).paren

/-- What stands before a group leaves no quoted run open, when the conditions are closed. -/
theorem reaches_leads {conditions : List (Link × List Char)}
    (h : ∀ condition ∈ conditions, Closed condition.2) :
    ∀ lead ∈ leads conditions, Reaches lead := by
  cases conditions with
  | nil => exact nofun
  | cons condition rest =>
    rw [List.forall_mem_cons] at h
    exact reaches_leadsFrom (List.forall_mem_singleton.mpr Closed.nil.reaches)
      h.1.parenthesize h.2

/-! ## The groups of a draft -/

/-- A statement up to its condition. -/
def introText (target : Target) : List Char :=
  "SELECT * FROM ".toList ++ quoteParts target.name.toList ++ " WHERE ".toList

/-- **The clauses of a draft that have a condition**, each with what stands in the statement before
its group. -/
def groups (draft : Draft) (target : Target) : List (List Char × Clause) :=
  ((leads (conditions draft)).map (introText target ++ ·)).zip
    (draft.clauses.filter fun clause => (conditionOf? draft clause).isSome)

/-- **No raw filter leaves its group.** The parentheses around the text of a raw filter belong
together, outside of quoted runs, and the statement up to the end of its condition closes all that
it opens. -/
structure GroupsHold (draft : Draft) (target : Target) (text : List Char) : Prop where
  pairs : ∀ lead link raw, (lead, Clause.raw link raw) ∈ groups draft target →
    Pairs text lead.length (lead.length + raw.length + 1)
  ends : Closed (headText draft target)

theorem headText_of_ne_nil {draft : Draft} (h : conditions draft ≠ []) (target : Target) :
    headText draft target = introText target ++ joinConditions (conditions draft) := by
  unfold headText introText whereText
  rw [if_neg (by simpa using h), List.append_assoc, List.append_assoc, List.append_assoc]

theorem forall₂_filter_of_filterMap {α β γ : Type} {f : α → Option β} {R : γ → β → Prop}
    {xs : List γ} {ys : List α} (h : List.Forall₂ R xs (ys.filterMap f)) :
    List.Forall₂ (fun x y => ∃ b, f y = some b ∧ R x b) xs (ys.filter fun y => (f y).isSome) := by
  induction ys generalizing xs with
  | nil => simpa using h
  | cons y ys ih =>
    cases hy : f y with
    | none =>
      rw [List.filterMap_cons_none hy] at h
      rw [List.filter_cons_of_neg (by simp [hy])]
      exact ih h
    | some b =>
      rw [List.filterMap_cons_some hy, List.forall₂_cons_right_iff] at h
      obtain ⟨x, rest, hx, hrest, rfl⟩ := h
      rw [List.filter_cons_of_pos (by simp [hy])]
      exact .cons ⟨b, hy, hx⟩ (ih hrest)

/-- The groups of a draft stand where they are said to. -/
theorem forall₂_groups (draft : Draft) (target : Target) :
    List.Forall₂ (fun lead clause => ∃ condition, conditionOf? draft clause = some condition ∧
        Leads (headText draft target) (introText target ++ lead) condition)
      (leads (conditions draft))
      (draft.clauses.filter fun clause => (conditionOf? draft clause).isSome) := by
  have hleads : List.Forall₂ (fun lead => Leads (headText draft target) (introText target ++ lead))
      (leads (conditions draft)) (conditions draft) := by
    -- Without a condition there is no group, and else the groups stand behind `WHERE`.
    by_cases hnil : conditions draft = []
    · rw [hnil]
      exact .nil
    · rw [headText_of_ne_nil hnil]
      exact (forall₂_leads _).imp fun lead condition hlead => hlead.behind (introText target)
  exact forall₂_filter_of_filterMap hleads

/-- What stands before the group of a raw filter in a statement. -/
theorem lead_of_mem_groups {draft : Draft} {target : Target} {lead : List Char} {link : Link}
    {raw : String} (h : (lead, .raw link raw) ∈ groups draft target) :
    .raw link raw ∈ draft.clauses ∧
      (∃ inner ∈ leads (conditions draft), lead = introText target ++ inner) ∧
      lead ++ parenthesize raw.toList <+: headText draft target := by
  rw [groups, List.zip_map_left] at h
  obtain ⟨⟨inner, clause⟩, hmem, heq⟩ := List.mem_map.mp h
  obtain ⟨rfl, rfl⟩ := Prod.mk.inj heq
  obtain ⟨condition, hcondition, hlead⟩ := List.forall₂_zip (forall₂_groups draft target) hmem
  obtain rfl := Option.some.inj hcondition
  have hparts := List.of_mem_zip hmem
  exact ⟨List.mem_of_mem_filter hparts.2, ⟨inner, hparts.1, rfl⟩, hlead⟩

/-- Every raw filter of a draft has a group. -/
theorem exists_mem_groups {draft : Draft} {link : Link} {raw : String}
    (h : .raw link raw ∈ draft.clauses) (target : Target) :
    ∃ lead, (lead, .raw link raw) ∈ groups draft target := by
  have hlength := (forall₂_groups draft target).length_eq
  have hclauses : (groups draft target).map (·.2) =
      draft.clauses.filter fun clause => (conditionOf? draft clause).isSome := by
    rw [groups]
    exact List.map_snd_zip (by simp [hlength])
  have hmem : .raw link raw ∈ (groups draft target).map (·.2) := by
    rw [hclauses]
    exact List.mem_filter.mpr ⟨h, rfl⟩
  obtain ⟨⟨lead, clause⟩, hgroup, rfl⟩ := List.mem_map.mp hmem
  exact ⟨lead, hgroup⟩

/-! ## When the groups hold -/

theorem nests_of_flagsText {screen : Screen} {text : String} (h : screen.flagsText text = false) :
    nests text.toList := by
  simp only [Screen.flagsText, Bool.or_eq_false_iff, Bool.not_eq_false'] at h
  exact h.1.1.2

section

variable {screen : Screen} {draft : Draft} {target : Target}

theorem closed_introText (hname : screen.flagsField target.name = false) :
    Closed (introText target) := by
  have hquoted := isQuotedName_quoteParts (isFieldName_of_flagsField hname)
  unfold introText
  exact (Closed.append (by decide) hquoted.closed).append (by decide)

theorem closed_headText (hname : screen.flagsField target.name = false)
    (h : ∀ condition ∈ conditions draft, Closed condition.2) : Closed (headText draft target) := by
  by_cases hnil : conditions draft = []
  · have hquoted := isQuotedName_quoteParts (isFieldName_of_flagsField hname)
    unfold headText whereText
    rw [hnil, List.isEmpty_nil, if_pos rfl, List.append_nil]
    exact Closed.append (by decide) hquoted.closed
  · rw [headText_of_ne_nil hnil]
    exact (closed_introText hname).append (closed_joinConditions h)

/-- **The groups of a statement hold exactly when its raw filters are closed.** -/
theorem groupsHold_iff (hname : screen.flagsField target.name = false)
    (hwritable : ∀ clause ∈ draft.clauses, ∀ binding ∈ clause.bindings,
      Writable screen draft binding)
    (hnests : ∀ link raw, .raw link raw ∈ draft.clauses → nests raw.toList)
    (after : List Char) :
    GroupsHold draft target (headText draft target ++ after) ↔
      ∀ link raw, .raw link raw ∈ draft.clauses → Closed raw.toList := by
  have hsplit : ∀ lead link raw, (lead, .raw link raw) ∈ groups draft target →
      ∃ rest, headText draft target ++ after = lead ++ parenthesize raw.toList ++ rest := by
    intro lead link raw hmem
    obtain ⟨-, -, rest, hrest⟩ := lead_of_mem_groups hmem
    exact ⟨rest ++ after, by rw [← hrest, List.append_assoc]⟩
  constructor
  · -- The text nests by itself, so that only its last quoted run could leave the group.
    intro h link raw hmem
    obtain ⟨lead, hgroup⟩ := exists_mem_groups hmem target
    obtain ⟨rest, hrest⟩ := hsplit lead link raw hgroup
    have hpairs := h.pairs lead link raw hgroup
    rw [hrest] at hpairs
    exact closed_of_pairs (hnests link raw hmem) hpairs
  · -- All conditions are closed, those before the group among them.
    intro hclosed
    have hconditions := closed_conditions hwritable hclosed
    refine ⟨fun lead link raw hgroup => ?_, closed_headText hname hconditions⟩
    obtain ⟨rest, hrest⟩ := hsplit lead link raw hgroup
    obtain ⟨hmem, ⟨inner, hinner, rfl⟩, -⟩ := lead_of_mem_groups hgroup
    obtain ⟨opened, hopened⟩ := (closed_introText hname).reaches.append
      (reaches_leads hconditions inner hinner) [] 0
    rw [hrest]
    exact pairs_parenthesize hopened (hclosed link raw hmem) rest

end

/-! ## Queries of accepted fragments -/

/-- **A query and the fragments that it is composed of.** -/
structure Composed (screen : Screen) (fragments : List Fragment) (draft : Draft) (target : Target)
    (query : CompiledQuery) : Prop where
  eq_collect : draft = .collect fragments
  name : screen.flagsField target.name = false
  writable : ∀ clause ∈ draft.clauses, ∀ binding ∈ clause.bindings, Writable screen draft binding
  raw : ∀ link text, .raw link text ∈ draft.clauses ↔ .raw link text ∈ fragments
  nests : ∀ link text, .raw link text ∈ draft.clauses → nests text.toList
  text : query.text.toList = headText draft target ++ trailingText draft
  params : query.params = draft.params

namespace Composed

variable {screen : Screen} {fragments : List Fragment} {draft : Draft} {target : Target}
  {query : CompiledQuery}

/-- Raw filters that leave no quoted run open are closed. -/
theorem closed (h : Composed screen fragments draft target query)
    (hquote : ∀ link text, .raw link text ∈ fragments → quoteAfter none text.toList = none)
    (link : Link) (text : String) (hmem : .raw link text ∈ draft.clauses) : Closed text.toList :=
  closed_iff.mpr ⟨h.nests link text hmem, hquote link text ((h.raw link text).mp hmem)⟩

end Composed

/-- Fragments that a sync with this backend accepts compose the query that is compiled. -/
theorem composed_of_sync {screen : Screen} {database : Database} {fragments : List Fragment}
    {tally : Tally} {query : CompiledQuery} :
    let engine : Engine := { backend := some (backend screen database) }
    let synced := engine.sync ⟨fragments⟩ tally
    synced.outcome = .ok () → (synced.engine.compile synced.tally).1 = .ok query →
      ∃ target, Composed screen fragments synced.engine.draft target query := by
  intro engine synced hsync hcompile
  have hdraft : engine.draft = .collect [] := rfl
  have hall := Engine.admitsAll_of_sync_eq_ok hdraft hsync
  have hsynced : synced.engine = { engine with draft := .collect fragments } :=
    (Engine.sync_of_admitsAll hdraft hall tally).2
  have hbackend : synced.engine.backend = some (backend screen database) :=
    congrArg Engine.backend hsynced
  have hcollected : synced.engine.draft = .collect fragments := congrArg Engine.draft hsynced
  obtain ⟨-, hstatement⟩ := engine_compile_eq_ok hbackend hcompile
  obtain ⟨target, -, hname, hwritable, htext⟩ := statement_eq_ok hstatement
  have hraw : ∀ link text, .raw link text ∈ synced.engine.draft.clauses ↔
      .raw link text ∈ fragments := by
    rw [hcollected]
    exact fun _ _ => Draft.raw_mem_collect_clauses_iff
  refine ⟨target, hcollected, hname, hwritable, hraw, fun link text hmem => ?_, htext,
    engine_compile_params hbackend hcompile⟩
  -- Every raw filter of the draft was put there by a fragment that the screen has passed.
  obtain ⟨before, after, rfl⟩ := List.append_of_mem ((hraw link text).mp hmem)
  obtain ⟨b, hb, hflags⟩ := (hall before _ after rfl).text text rfl
  obtain rfl := Option.some.inj hb
  exact nests_of_flagsText hflags

/-- **The groups of a query hold exactly when the raw filters put into it are closed.** Fragments
that a sync with this backend accepts are compiled. Then the group of every raw filter stands where
it is said to, and the groups hold exactly when every raw filter closes the quoted runs and the
parentheses that it opens. -/
theorem sync_compile_groupsHold_iff {screen : Screen} {database : Database}
    {fragments : List Fragment} {tally : Tally} {query : CompiledQuery} :
    let engine : Engine := { backend := some (backend screen database) }
    let synced := engine.sync ⟨fragments⟩ tally
    synced.outcome = .ok () → (synced.engine.compile synced.tally).1 = .ok query →
      ∃ target, synced.engine.draft.output = some target ∧
        headText synced.engine.draft target <+: query.text.toList ∧
        (∀ link raw, .raw link raw ∈ fragments →
          ∃ lead, (lead, .raw link raw) ∈ groups synced.engine.draft target) ∧
        (∀ lead link raw, (lead, .raw link raw) ∈ groups synced.engine.draft target →
          lead ++ parenthesize raw.toList <+: query.text.toList) ∧
        (GroupsHold synced.engine.draft target query.text.toList ↔
          ∀ link raw, .raw link raw ∈ fragments → Closed raw.toList) := by
  intro engine synced hsync hcompile
  have hdraft : engine.draft = .collect [] := rfl
  have hall := Engine.admitsAll_of_sync_eq_ok hdraft hsync
  have hsynced : synced.engine = { engine with draft := .collect fragments } :=
    (Engine.sync_of_admitsAll hdraft hall tally).2
  rw [hsynced] at hcompile ⊢
  obtain ⟨-, hstatement⟩ := engine_compile_eq_ok rfl hcompile
  obtain ⟨target, houtput, hname, hwritable, htext⟩ := statement_eq_ok hstatement
  have hraw : ∀ link raw, .raw link raw ∈ (Draft.collect fragments).clauses ↔
      .raw link raw ∈ fragments := fun _ _ => Draft.raw_mem_collect_clauses_iff
  -- Every raw filter of the draft was put there by a fragment that the screen has passed.
  have hnests : ∀ link raw, .raw link raw ∈ (Draft.collect fragments).clauses →
      nests raw.toList := by
    intro link raw hmem
    obtain ⟨before, after, rfl⟩ := List.append_of_mem ((hraw link raw).mp hmem)
    obtain ⟨b, hb, hflags⟩ := (hall before _ after rfl).text raw rfl
    obtain rfl := Option.some.inj hb
    exact nests_of_flagsText hflags
  refine ⟨target, houtput, ?_, fun link raw hmem => ?_, fun lead link raw hmem => ?_, ?_⟩
  · rw [htext]
    exact List.prefix_append _ _
  · exact exists_mem_groups ((hraw link raw).mpr hmem) target
  · rw [htext]
    exact (lead_of_mem_groups hmem).2.2.trans (List.prefix_append _ _)
  · rw [htext]
    simpa only [hraw] using groupsHold_iff hname hwritable hnests _

/-- The groups of a query hold. -/
theorem sync_compile_groupsHold_age :
    let engine : Engine := { backend := some (backend {} []) }
    let fragments := [.raw .start "age > 3", .find ⟨"users", 0⟩]
    let synced := engine.sync ⟨fragments⟩ {}
    synced.outcome = .ok () ∧
      (synced.engine.compile synced.tally).1 =
        .ok ⟨"SELECT * FROM \"users\" WHERE (age > 3)", [], false⟩ ∧
      ∃ target, GroupsHold synced.engine.draft target
        "SELECT * FROM \"users\" WHERE (age > 3)".toList := by
  intro engine fragments synced
  have hsync : synced.outcome = .ok () := by
    rfl
  have hcompile : (synced.engine.compile synced.tally).1 =
        .ok ⟨"SELECT * FROM \"users\" WHERE (age > 3)", [], false⟩ := by
    rfl
  obtain ⟨target, -, -, -, -, hiff⟩ := sync_compile_groupsHold_iff hsync hcompile
  refine ⟨hsync, hcompile, target, hiff.mpr fun link raw hmem => ?_⟩
  obtain ⟨-, rfl⟩ : link = .start ∧ raw = "age > 3" := by
    simpa [fragments, Fragment.find] using hmem
  decide

/-- **The groups of a query need not hold**: each kind of quotes comes twice in this text, the screen
lets it pass, and the run that its last quote opens goes on behind the group. -/
theorem sync_compile_not_groupsHold :
    let engine : Engine := { backend := some (backend {} []) }
    let fragments := [.raw .start "'\"'\"", .find ⟨"users", 0⟩]
    let synced := engine.sync ⟨fragments⟩ {}
    synced.outcome = .ok () ∧
      (synced.engine.compile synced.tally).1 =
        .ok ⟨"SELECT * FROM \"users\" WHERE ('\"'\")", [], false⟩ ∧
      ∀ target, synced.engine.draft.output = some target →
        ¬ GroupsHold synced.engine.draft target
          "SELECT * FROM \"users\" WHERE ('\"'\")".toList := by
  intro engine fragments synced
  refine ⟨rfl, rfl, fun target htarget hholds => ?_⟩
  obtain rfl := Option.some.inj htarget
  have hopen : ¬ Closed (headText synced.engine.draft ⟨"users", 0⟩) := by decide
  exact hopen hholds.ends

end ScreenedQuery.Sql
