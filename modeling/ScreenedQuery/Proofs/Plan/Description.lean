import ScreenedQuery.Proofs.Plan.RoundTrip
import ScreenedQuery.Proofs.Plan.Selection

/-!
# The plan of a draft

The plan of a draft has a step for each filter with a condition, in order, and the order and the
limit that were asked for last. Its literals are no infinite or undefined numbers, and when the
bindings of the draft have values, then so have the parameters of the plan; its text is then read as
this plan again.

## Main definitions

* `Clause.order?`, `Clause.limit?`: the order and the limit that a clause asks for
* `Plan.Describes`: what a plan says of a draft
* `Plan.IsBound`: a plan the parameters of which all have values

## Main results

* `Plan.foldlM_extend`: what clauses add to a plan
* `Value.isPrintable_ofLiteral`: literals are no infinite or undefined numbers
* `Plan.Describes.isPrintable`: the plan of a draft has a text that is read
-/

namespace ScreenedQuery

/-! ## Clauses and what they add -/

/-- The order that a clause asks for. -/
def Clause.order? : Clause → Option OrderBy
  | misc payload => (Directive.ofJson? payload).bind fun directive =>
    directive.orderBy.map (⟨·, directive.descending⟩)
  | _ => none

/-- The limit that a clause asks for. -/
def Clause.limit? : Clause → Option Nat
  | misc payload => (Directive.ofJson? payload).bind (·.limit)
  | _ => none

/-- A clause that has a place in a plan: the text of a raw filter is a comparison, and a payload is
a directive. -/
def Clause.IsPlanned : Clause → Prop
  | raw _ text => (Predicate.ofText? text).isSome
  | misc payload => (Directive.ofJson? payload).isSome
  | _ => True

namespace Plan

variable {plan next : Plan} {clause : Clause} {clauses : List Clause}

/-- What one clause adds to a plan. -/
theorem extend_eq_ok (h : plan.extend clause = .ok next) : clause.IsPlanned ∧
    next = ⟨plan.collection, plan.steps ++ clause.step?.toList, clause.order?.or plan.orderBy,
      clause.limit?.or plan.limit⟩ := by
  unfold extend at h
  split at h
  case h_1 =>
    obtain rfl := Except.ok.inj h
    exact ⟨trivial, by simp [Clause.step?, Clause.order?, Clause.limit?]⟩
  case h_2 link bindings hne =>
    obtain rfl := Except.ok.inj h
    refine ⟨trivial, ?_⟩
    have hstep : (Clause.filter link bindings).step? = some ⟨link, .ofBindings bindings⟩ := by
      cases bindings with
      | nil => exact absurd rfl hne
      | cons first bindings => rfl
    simp [hstep, addStep, Clause.order?, Clause.limit?]
  case h_3 link text =>
    split at h
    · rename_i predicate hpredicate
      obtain rfl := Except.ok.inj h
      refine ⟨by rw [Clause.IsPlanned, hpredicate]; rfl, ?_⟩
      simp [addStep, Clause.step?, hpredicate, Clause.order?, Clause.limit?]
    · cases h
  case h_4 =>
    obtain rfl := Except.ok.inj h
    exact ⟨trivial, by simp [Clause.step?, Clause.order?, Clause.limit?]⟩
  case h_5 payload =>
    split at h
    · rename_i directive hdirective
      obtain rfl := Except.ok.inj h
      refine ⟨by rw [Clause.IsPlanned, hdirective]; rfl, ?_⟩
      cases horder : directive.orderBy <;>
        simp [direct, Clause.step?, hdirective, Clause.order?, Clause.limit?, horder]
    · cases h

/-- The last one of a list, or else the one before it. -/
theorem getLast?_toList_append_or {α : Type} (first : Option α) (rest : List α)
    (before : Option α) :
    (first.toList ++ rest).getLast?.or before = rest.getLast?.or (first.or before) := by
  cases first with
  | none => rfl
  | some a =>
    rw [Option.toList_some, List.singleton_append, List.getLast?_cons]
    cases rest.getLast? <;> rfl

/-- **What clauses add to a plan**: a step each, and the order and the limit that are asked for
last. -/
theorem foldlM_extend (h : clauses.foldlM extend plan = .ok next) :
    (∀ clause ∈ clauses, clause.IsPlanned) ∧
      next = ⟨plan.collection, plan.steps ++ clauses.filterMap Clause.step?,
        (clauses.filterMap Clause.order?).getLast?.or plan.orderBy,
        (clauses.filterMap Clause.limit?).getLast?.or plan.limit⟩ := by
  induction clauses generalizing plan with
  | nil =>
    obtain rfl : plan = next := Except.ok.inj h
    simp
  | cons clause clauses ih =>
    -- What the first clause asks for stands behind whatever a later one asks for.
    rw [List.foldlM_cons] at h
    cases hfirst : plan.extend clause with
    | error error => exact nomatch hfirst ▸ h
    | ok middle =>
      rw [hfirst] at h
      obtain ⟨hplanned, rfl⟩ := extend_eq_ok hfirst
      obtain ⟨hall, rfl⟩ := ih h
      have hcons {α : Type} (f : Clause → Option α) :
          (clause :: clauses).filterMap f = (f clause).toList ++ clauses.filterMap f := by
        rw [List.filterMap_cons]
        cases f clause <;> rfl
      refine ⟨List.forall_mem_cons.mpr ⟨hplanned, hall⟩, ?_⟩
      rw [hcons, hcons, hcons, getLast?_toList_append_or, getLast?_toList_append_or,
        List.append_assoc]

/-- **What the plan of a draft says**: a step for each filter with a condition, in order, and the
order and the limit that are asked for last. -/
structure Describes (plan : Plan) (draft : Draft) (target : Target) : Prop where
  collection : plan.collection = target.name
  steps : plan.steps = draft.clauses.filterMap Clause.step?
  orderBy : plan.orderBy = (draft.clauses.filterMap Clause.order?).getLast?
  limit : plan.limit = (draft.clauses.filterMap Clause.limit?).getLast?
  planned : ∀ clause ∈ draft.clauses, clause.IsPlanned

/-- A draft that is compiled has a target, and the text is that of its plan. -/
theorem compile_eq_ok {draft : Draft} {query : CompiledQuery} (h : compile draft = .ok query) :
    ∃ target plan, draft.output = some target ∧ Describes plan draft target ∧
      query = ⟨plan.toText, draft.params, false⟩ := by
  unfold compile ofDraft at h
  cases houtput : draft.output with
  | none => simp [houtput, Except.map] at h
  | some target =>
    rw [houtput] at h
    dsimp only at h
    cases hplan : draft.clauses.foldlM extend (ofCollection target.name) with
    | error error => exact nomatch hplan ▸ h
    | ok plan =>
      rw [hplan] at h
      obtain rfl := Except.ok.inj h
      obtain ⟨hplanned, hnext⟩ := foldlM_extend hplan
      refine ⟨target, plan, rfl, ⟨?_, ?_, ?_, ?_, hplanned⟩, rfl⟩ <;> simp [hnext, ofCollection]

end Plan

/-! ## What can be read -/

namespace Value

theorem isPrintable_of_ofWord? {word : List Char} {value : Value} (h : ofWord? word = some value) :
    value.IsPrintable := by
  unfold ofWord? at h
  split at h
  case h_4 => exact nomatch h
  all_goals
    obtain rfl := Option.some.inj h
    trivial

theorem isPrintable_of_ofNumber? {text : List Char} {value : Value}
    (h : ofNumber? text = some value) : value.IsPrintable := by
  unfold ofNumber? at h
  split at h
  · obtain rfl := Option.some.inj h
    trivial
  · obtain ⟨x, hx, rfl⟩ := Option.map_eq_some_iff.mp h
    exact (Option.filter_eq_some_iff.mp hx).2

/-- **A literal is never an infinite or undefined number.** -/
theorem isPrintable_ofLiteral (text : List Char) : (ofLiteral text).IsPrintable := by
  unfold ofLiteral
  dsimp only
  split
  · trivial
  · cases hword : ofWord? (Unicode.trim text) with
    | some value => exact isPrintable_of_ofWord? hword
    | none =>
      rw [Option.none_or]
      cases hnumber : ofNumber? (Unicode.trim text) with
      | some value => exact isPrintable_of_ofNumber? hnumber
      | none => trivial

end Value

/-- A text states a comparison with a literal that can be read. -/
theorem Predicate.exists_of_ofText? {text : String} {predicate : Predicate}
    (h : ofText? text = some predicate) :
    ∃ field comparison literal, predicate = compare field comparison literal ∧
      literal.IsPrintable := by
  unfold ofText? at h
  obtain ⟨⟨field, rest⟩, -, h⟩ := Option.bind_eq_some_iff.mp h
  obtain ⟨⟨comparison, literal⟩, -, h⟩ := Option.bind_eq_some_iff.mp h
  exact ⟨_, _, _, (Option.some.inj h).symm, Value.isPrintable_ofLiteral literal⟩

/-- A count is read within 64 bits. -/
theorem Json.lt_of_toSize? {json : Json} {n : Nat} (h : toSize? json = some n) :
    n < UInt64.size := by
  unfold toSize? at h
  split at h
  · split at h
    · obtain rfl := Option.some.inj h
      omega
    · exact nomatch h
  · exact nomatch h

/-- A field that has a value was read. -/
theorem Json.exists_of_nullable {α : Type} {parts : List (String × Json)} {name : String}
    {read : Json → Option α} {value : α} (h : nullable parts name read = some (some value)) :
    ∃ json, read json = some value := by
  unfold nullable at h
  split at h
  · cases h
  · cases h
  · obtain ⟨result, hresult, hvalue⟩ := Option.map_eq_some_iff.mp h
    obtain rfl := Option.some.inj hvalue
    exact ⟨_, hresult⟩

/-- A limit fits 64 bits. -/
theorem Clause.limit?_lt {clause : Clause} {n : Nat} (h : clause.limit? = some n) :
    n < UInt64.size := by
  cases clause with
  | misc payload =>
    obtain ⟨directive, hdirective, hlimit⟩ := Option.bind_eq_some_iff.mp h
    unfold Directive.ofJson? at hdirective
    obtain ⟨parts, -, hdirective⟩ := Option.bind_eq_some_iff.mp hdirective
    obtain ⟨orderBy, -, hdirective⟩ := Option.bind_eq_some_iff.mp hdirective
    obtain ⟨descending, -, hdirective⟩ := Option.bind_eq_some_iff.mp hdirective
    obtain ⟨limit, hread, hdirective⟩ := Option.bind_eq_some_iff.mp hdirective
    obtain rfl := Option.some.inj hdirective
    obtain rfl : limit = some n := hlimit
    obtain ⟨json, hjson⟩ := Json.exists_of_nullable hread
    exact Json.lt_of_toSize? hjson
  | _ => exact nomatch h

/-- The step of a clause is made of its bindings, or of a comparison that can be read. -/
theorem Clause.step?_cases {clause : Clause} {step : Step} (h : clause.step? = some step) :
    step.predicate = .ofBindings clause.bindings ∨
      ∃ field comparison literal, step.predicate = .compare field comparison literal ∧
        literal.IsPrintable := by
  cases clause with
  | filter link bindings =>
    cases bindings with
    | nil => exact nomatch h
    | cons first bindings =>
      obtain rfl := Option.some.inj h
      exact .inl rfl
  | raw link text =>
    obtain ⟨predicate, hpredicate, rfl⟩ := Option.map_eq_some_iff.mp h
    exact .inr (Predicate.exists_of_ofText? hpredicate)
  | setTarget => exact nomatch h
  | misc payload => exact nomatch h

/-! ## Parameters and texts -/

namespace Plan

variable {plan : Plan} {draft : Draft} {target : Target}

/-- A plan the parameters of which all have values. -/
def IsBound (params : List Value) (plan : Plan) : Prop :=
  ∀ step ∈ plan.steps, ∀ fields, step.predicate = .allEqual fields →
    ∀ entry ∈ fields, entry.param < params.length

/-- The parameters of the plan of a draft have values if the bindings of the draft do. -/
theorem Describes.isBound (h : plan.Describes draft target)
    (hbound : ∀ clause ∈ draft.clauses, ∀ binding ∈ clause.bindings,
      binding.placeholder.index < draft.params.length) : plan.IsBound draft.params := by
  intro step hstep fields hfields entry hentry
  rw [h.steps] at hstep
  obtain ⟨clause, hclause, hsome⟩ := List.mem_filterMap.mp hstep
  rcases Clause.step?_cases hsome with hbindings | ⟨field, comparison, literal, hcompare, -⟩
  · obtain rfl : _ = fields := Predicate.allEqual.inj (hbindings.symm.trans hfields)
    obtain ⟨binding, hbinding, rfl⟩ := List.mem_map.mp hentry
    exact hbound clause hclause binding hbinding
  · exact nomatch hcompare.symm.trans hfields

/-- The plan of a draft has a text that is read. -/
theorem Describes.isPrintable (h : plan.Describes draft target)
    (hbound : plan.IsBound draft.params) (hcount : draft.params.length ≤ UInt64.size) :
    plan.IsPrintable := by
  refine ⟨fun step hstep => ?_, fun n hn => ?_⟩
  · have hparams := hbound step hstep
    rw [h.steps] at hstep
    obtain ⟨clause, -, hsome⟩ := List.mem_filterMap.mp hstep
    rcases Clause.step?_cases hsome with hbindings | ⟨field, comparison, literal, hcompare, hread⟩
    · rw [hbindings]
      exact fun entry hentry => lt_of_lt_of_le (hparams _ hbindings entry hentry) hcount
    · rw [hcompare]
      exact hread
  · rw [h.limit] at hn
    obtain ⟨clause, -, hlimit⟩ := List.mem_filterMap.mp (List.mem_of_getLast? hn)
    exact Clause.limit?_lt hlimit

theorem IsBound.reread {params : List Value} (h : plan.IsBound params) :
    plan.reread.IsBound params := by
  intro step hstep fields hfields
  obtain ⟨original, horiginal, rfl⟩ := List.mem_map.mp hstep
  refine h original horiginal fields ?_
  cases hpredicate : original.predicate with
  | allEqual others => rwa [Step.reread, hpredicate] at hfields
  | compare field comparison literal =>
    rw [Step.reread, hpredicate] at hfields
    cases hfields

/-- A plan whose numbers are read back is read back as a whole. -/
theorem reread_eq_self_of_floats (h : ∀ step ∈ plan.steps, ∀ field comparison x,
    step.predicate = .compare field comparison (.float x) → x.reread = x) :
    plan.reread = plan := by
  refine reread_eq_self fun step hstep => ?_
  cases hpredicate : step.predicate with
  | allEqual fields => rfl
  | compare field comparison literal =>
    cases literal with
    | float x => rw [Predicate.reread, Value.reread, h step hstep field comparison x hpredicate]
    | _ => rfl

end Plan

end ScreenedQuery
