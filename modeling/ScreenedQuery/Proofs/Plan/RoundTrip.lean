import ScreenedQuery.Plan.Encoding
import ScreenedQuery.Proofs.Json.RoundTrip

/-!
# Plans read back

The text of a plan is read as this plan. The numbers of its parameters and its limit have to be
counts of 64 bits, and a number among its literals has to be finite. Such a number is read from its
own text again, which may give a number close by.

## Main definitions

* `Plan.IsPrintable`: the plans with a text that is read
* `Plan.reread`: what the text of a plan is read as

## Main results

* `Value.ofJsonBy?_toJson`: values are read back from JSON
* `Plan.ofJson?_toJson`: plans are read back from JSON
* `Plan.ofText?_toText`: plans are read back from their texts
-/

namespace ScreenedQuery

/-! ## Lists -/

/-- Items that are each read back are read back together. -/
theorem mapM_map_eq_some {α β : Type} {write : α → β} {read : β → Option α} {items : List α}
    (h : ∀ item ∈ items, read (write item) = some item) :
    (items.map write).mapM read = some items := by
  induction items with
  | nil => rfl
  | cons item items ih =>
    rw [List.forall_mem_cons] at h
    rw [List.map_cons, List.mapM_cons, h.1, ih h.2]
    rfl

theorem toList?_map {α : Type} {write : α → Json} {read : Json → Option α} {items : List α}
    (h : ∀ item ∈ items, read (write item) = some item) :
    Json.toList? read (.array (items.map write)) = some items :=
  mapM_map_eq_some h

theorem Json.areReadable_map {α : Type} {write : α → Json}
    (h : ∀ item, (write item).isReadable = true) (items : List α) :
    areReadable (items.map write) = true := by
  induction items with
  | nil => rfl
  | cons item items ih => rw [List.map_cons, areReadable, h, ih]; rfl

theorem Json.arePrintable_map {α : Type} {write : α → Json} {room : Nat} {items : List α}
    (h : ∀ item ∈ items, IsPrintable room (write item)) :
    ArePrintable room (items.map write) := by
  induction items with
  | nil => trivial
  | cons item items ih =>
    rw [List.forall_mem_cons] at h
    exact ⟨h.1, ih h.2⟩

/-- Counts of 64 bits are read back. -/
theorem Json.toSize?_natCast {n : Nat} (h : n < UInt64.size) : toSize? (.integer n) = some n := by
  rw [toSize?, if_pos ⟨Int.natCast_nonneg n, Int.ofNat_lt.mpr h⟩, Int.toNat_natCast]

theorem Json.isPrintable_natCast {n room : Nat} (h : n < UInt64.size) :
    IsPrintable room (.integer n) := by
  have hmin : Int64.minValue.toInt = -9223372036854775808 := by decide
  exact ⟨by omega, Int.ofNat_lt.mpr h⟩

/-! ## Fields of records -/

/-- A field that is there is read. -/
theorem Json.required_eq {α : Type} {parts : List (String × Json)} {name : String} {json : Json}
    (h : parts.lookup name = some json) (read : Json → Option α) :
    required parts name read = read json := by
  rw [required, h, Option.bind_some]

/-- A field that is written as null when it has no value is read back. -/
theorem Json.nullable_eq {α : Type} {parts : List (String × Json)} {name : String}
    {value : Option α} {write : α → Json} {read : Json → Option α}
    (h : parts.lookup name = some ((value.map write).getD .null))
    (hwrite : ∀ a ∈ value, write a ≠ .null ∧ read (write a) = some a) :
    nullable parts name read = some value := by
  unfold nullable
  rw [h]
  cases value with
  | none => rfl
  | some a =>
    obtain ⟨hnull, hread⟩ := hwrite a rfl
    rw [Option.map_some, Option.getD_some]
    split
    · exact absurd ‹_› (by simp)
    · exact absurd (Option.some.inj ‹_›) hnull
    · obtain rfl := Option.some.inj ‹_›
      rw [hread]
      rfl

/-! ## Values -/

namespace Value

theorem toByte?_toNat (b : UInt8) : Json.toByte? (.integer b.toNat) = some b := by
  have hlt : b.toNat < 256 := UInt8.toNat_lt b
  simp [Json.toByte?]
  omega

/-- **Values are read back from JSON**, in whichever way a tag that is a string is read. -/
theorem ofJsonBy?_toJson {choice : Json → Option String}
    (hchoice : ∀ tag, choice (.string tag) = some tag) (value : Value) :
    ofJsonBy? choice value.toJson = some value := by
  have hbytes (bs : List UInt8) :
      Json.toBytes? (.array (bs.map (.integer ·.toNat))) = some bs :=
    toList?_map fun b _ => toByte?_toNat b
  cases value with
  | bytes bs => simp [toJson, ofJsonBy?, Json.membersNamed, hchoice, ofTagged?, hbytes]
  | _ =>
    simp [toJson, ofJsonBy?, Json.membersNamed, hchoice, ofTagged?, Json.toBool?, Json.toInt64?,
      Json.toFloat?, Json.toText?]

theorem isReadable_toJson (value : Value) : value.toJson.isReadable = true := by
  cases value with
  | bytes bs =>
    have hitems := @Json.areReadable_map _ (fun b : UInt8 => .integer b.toNat) (fun _ => rfl) bs
    simp [toJson, Json.isReadable, Json.membersReadable, hitems]
  | _ => rfl

/-- A value that is not an infinite or undefined number. -/
def IsPrintable : Value → Prop
  | float x => x.isFinite = true
  | _ => True

/-- What the text of a value is read as. -/
def reread : Value → Value
  | float x => float x.reread
  | value => value

theorem IsPrintable.reread {value : Value} (h : value.IsPrintable) : value.reread.IsPrintable := by
  cases value with
  | float x => exact Binary64.isFinite_reread h
  | _ => trivial

theorem reread_toJson (value : Value) : value.toJson.reread = value.reread.toJson := by
  cases value with
  | bytes bs =>
    simp [toJson, reread, Json.reread, Json.rereadMembers, Json.rereadItems_eq_map]
  | _ => rfl

theorem IsPrintable.toJson {value : Value} (h : value.IsPrintable) {room : Nat}
    (hroom : 1 < room) : Json.IsPrintable room value.toJson := by
  cases value with
  | int n =>
    have hmax : Int64.maxValue.toInt < UInt64.size := by decide
    have hle := Int64.toInt_le n
    exact ⟨by omega, trivial, ⟨Int64.minValue_le_toInt n, by omega⟩, trivial⟩
  | float x => exact ⟨by omega, trivial, h, trivial⟩
  | bytes bs =>
    refine ⟨by omega, trivial, ⟨by omega, Json.arePrintable_map fun b _ => ?_⟩, trivial⟩
    have hlt : b.toNat < 256 := UInt8.toNat_lt b
    exact Json.isPrintable_natCast (lt_trans hlt (by decide))
  | null => exact ⟨by omega, trivial, trivial⟩
  | _ => exact ⟨by omega, trivial, trivial, trivial⟩

end Value

/-! ## Steps -/

theorem Link.ofJson?_word (link : Link) : ofJson? (.string link.word) = some link := by
  cases link <;> rfl

theorem Comparison.ofJson?_name (comparison : Comparison) :
    ofJson? (.string comparison.name) = some comparison := by
  cases comparison <;> rfl

/-- A field with its parameter, in JSON. -/
def FieldParam.toJson (entry : FieldParam) : Json :=
  .object [("field", .string entry.field), ("param", .integer entry.param)]

theorem FieldParam.ofJson?_toJson {entry : FieldParam} (h : entry.param < UInt64.size) :
    ofJson? entry.toJson = some entry := by
  have hparts : entry.toJson.parts? ["field", "param"] false =
      some [("field", .string entry.field), ("param", .integer entry.param)] := by
    simp [toJson, Json.parts?, Json.membersNamed]
  have hfield : [("field", Json.string entry.field), ("param", .integer entry.param)].lookup
      "field" = some (.string entry.field) := by simp
  have hparam : [("field", Json.string entry.field), ("param", .integer entry.param)].lookup
      "param" = some (.integer entry.param) := by simp [List.lookup_cons]
  rw [ofJson?, hparts, Option.bind_eq_bind, Option.bind_some, Json.required_eq hfield,
    Json.required_eq hparam, Json.toSize?_natCast h]
  rfl

/-- A predicate with a text that is read. -/
def Predicate.IsPrintable : Predicate → Prop
  | allEqual fields => ∀ entry ∈ fields, entry.param < UInt64.size
  | compare _ _ literal => literal.IsPrintable

namespace Predicate

/-- What the text of a predicate is read as. -/
def reread : Predicate → Predicate
  | allEqual fields => allEqual fields
  | compare field comparison literal => compare field comparison literal.reread

theorem IsPrintable.reread {predicate : Predicate} (h : predicate.IsPrintable) :
    predicate.reread.IsPrintable := by
  cases predicate with
  | allEqual fields => exact h
  | compare field comparison literal => exact Value.IsPrintable.reread h

theorem toJson_allEqual (fields : List FieldParam) : toJson (allEqual fields) =
    .object [("kind", .string "match"), ("fields", .array (fields.map FieldParam.toJson))] := rfl

theorem isReadable_toJson (predicate : Predicate) : predicate.toJson.isReadable = true := by
  cases predicate with
  | allEqual fields =>
    have hfields := Json.areReadable_map (fun entry : FieldParam => (rfl :
      entry.toJson.isReadable = true)) fields
    simp [toJson_allEqual, Json.isReadable, Json.membersReadable, hfields]
  | compare field comparison literal =>
    simp [toJson, Json.isReadable, Json.membersReadable, literal.isReadable_toJson]

theorem reread_toJson (predicate : Predicate) :
    predicate.toJson.reread = predicate.reread.toJson := by
  cases predicate with
  | allEqual fields =>
    simp [toJson_allEqual, reread, Json.reread, Json.rereadMembers, Json.rereadItems_eq_map,
      FieldParam.toJson]
  | compare field comparison literal =>
    simp [toJson, reread, Json.reread, Json.rereadMembers, literal.reread_toJson]

/-- Predicates are read back from JSON. -/
theorem ofJson?_toJson {predicate : Predicate} (h : predicate.IsPrintable) :
    ofJson? predicate.toJson = some predicate := by
  have hreadable := predicate.isReadable_toJson
  unfold ofJson?
  -- A predicate is looked through as a whole before its kind decides how its parts are read.
  rw [hreadable]
  cases predicate with
  | allEqual fields =>
    have hfields := toList?_map fun entry hentry => FieldParam.ofJson?_toJson (h entry hentry)
    simp [toJson_allEqual, Json.membersNamed, ofParts?, Json.parts?, Json.required,
      hfields]
  | compare field comparison literal =>
    have hliteral := @Value.ofJsonBy?_toJson Json.laxChoice? (fun _ => rfl) literal
    simp [toJson, Json.membersNamed, ofParts?, Json.parts?, Json.required, List.lookup_cons,
      Json.toText?, Comparison.ofJson?_name, hliteral]

theorem IsPrintable.toJson {predicate : Predicate} (h : predicate.IsPrintable) {room : Nat}
    (hroom : 2 < room) : Json.IsPrintable room predicate.toJson := by
  cases predicate with
  | allEqual fields =>
    refine ⟨by omega, trivial, ⟨by omega, Json.arePrintable_map fun entry hentry => ?_⟩, trivial⟩
    exact ⟨by omega, trivial, Json.isPrintable_natCast (h entry hentry), trivial⟩
  | compare field comparison literal =>
    exact ⟨by omega, trivial, trivial, trivial, Value.IsPrintable.toJson h (by omega), trivial⟩

end Predicate

/-- What the text of a step is read as. -/
def Step.reread (step : Step) : Step := { step with predicate := step.predicate.reread }

theorem Step.reread_toJson (step : Step) : step.toJson.reread = step.reread.toJson := by
  simp [toJson, reread, Json.reread, Json.rereadMembers, step.predicate.reread_toJson]

theorem Step.ofJson?_toJson {step : Step} (h : step.predicate.IsPrintable) :
    ofJson? step.toJson = some step := by
  simp [ofJson?, toJson, Json.parts?, Json.membersNamed, Json.required, List.lookup_cons,
    Link.ofJson?_word, Predicate.ofJson?_toJson h]

theorem OrderBy.ofJson?_toJson (order : OrderBy) : ofJson? order.toJson = some order := by
  simp [ofJson?, toJson, Json.parts?, Json.membersNamed, Json.required, List.lookup_cons,
    Json.toText?, Json.toBool?]

/-! ## Plans -/

/-- **The plans with a text that is read.** -/
structure Plan.IsPrintable (plan : Plan) : Prop where
  steps : ∀ step ∈ plan.steps, step.predicate.IsPrintable
  limit : ∀ n ∈ plan.limit, n < UInt64.size

namespace Plan

variable {plan : Plan}

/-- **What the text of a plan is read as**: the plan, with the numbers among its literals read from
their own texts. -/
def reread (plan : Plan) : Plan := { plan with steps := plan.steps.map Step.reread }

/-- A plan without numbers that change is read back as it is. -/
theorem reread_eq_self (h : ∀ step ∈ plan.steps, step.predicate.reread = step.predicate) :
    plan.reread = plan := by
  obtain ⟨collection, steps, orderBy, limit⟩ := plan
  have hsteps : steps.map Step.reread = steps := by
    refine (List.map_congr_left fun step hstep => ?_).trans (List.map_id steps)
    rw [Step.reread, h step hstep]
    rfl
  rw [reread, hsteps]

theorem IsPrintable.reread (h : plan.IsPrintable) : plan.reread.IsPrintable :=
  ⟨List.forall_mem_map.mpr fun step hstep => (h.steps step hstep).reread, h.limit⟩

theorem reread_toJson (plan : Plan) : plan.toJson.reread = plan.reread.toJson := by
  obtain ⟨collection, steps, orderBy, limit⟩ := plan
  have hsteps : (steps.map Step.toJson).map Json.reread =
      (steps.map Step.reread).map Step.toJson := by
    rw [List.map_map, List.map_map]
    exact List.map_congr_left fun step _ => step.reread_toJson
  cases orderBy <;> cases limit <;>
    simp [toJson, reread, Json.reread, Json.rereadMembers, Json.rereadItems_eq_map, hsteps,
      OrderBy.toJson]

/-- The fields of the record of a plan, each with its name. -/
def fields (plan : Plan) : List (String × Json) :=
  [("collection", .string plan.collection), ("steps", .array (plan.steps.map Step.toJson)),
    ("order_by", (plan.orderBy.map OrderBy.toJson).getD .null),
    ("limit", (plan.limit.map fun n : Nat => .integer n).getD .null)]

theorem toJson_eq (plan : Plan) : plan.toJson = .object plan.fields := by
  obtain ⟨collection, steps, orderBy, limit⟩ := plan
  cases limit <;> rfl

/-- **Plans are read back from JSON.** -/
theorem ofJson?_toJson (h : plan.IsPrintable) : ofJson? plan.toJson = some plan := by
  have hparts : plan.toJson.parts? ["collection", "steps", "order_by", "limit"] false =
      some plan.fields := by
    rw [toJson_eq]
    simp [fields, Json.parts?, Json.membersNamed]
  have hcollection : plan.fields.lookup "collection" = some (.string plan.collection) := rfl
  have hsteps : plan.fields.lookup "steps" = some (.array (plan.steps.map Step.toJson)) := by
    simp [fields, List.lookup_cons]
  have horder : plan.fields.lookup "order_by" =
      some ((plan.orderBy.map OrderBy.toJson).getD .null) := by
    simp [fields, List.lookup_cons]
  have hlimit : plan.fields.lookup "limit" =
      some ((plan.limit.map fun n : Nat => Json.integer n).getD .null) := by
    simp [fields, List.lookup_cons]
  have hstepsRead := toList?_map fun step hstep => Step.ofJson?_toJson (h.steps step hstep)
  have horderRead := Json.nullable_eq horder fun order _ =>
    ⟨by simp [OrderBy.toJson], order.ofJson?_toJson⟩
  have hlimitRead := Json.nullable_eq hlimit fun n hn =>
    ⟨by simp, Json.toSize?_natCast (h.limit n hn)⟩
  rw [ofJson?, hparts, Option.bind_eq_bind, Option.bind_some, Json.required_eq hcollection,
    Json.required_eq hsteps, hstepsRead, horderRead, hlimitRead]
  rfl

theorem IsPrintable.toJson (h : plan.IsPrintable) {room : Nat} (hroom : 5 < room) :
    Json.IsPrintable room plan.toJson := by
  refine ⟨by omega, trivial, ⟨by omega, Json.arePrintable_map fun step hstep => ?_⟩, ?_, ?_,
    trivial⟩
  · exact ⟨by omega, trivial, (h.steps step hstep).toJson (by omega), trivial⟩
  · cases plan.orderBy with
    | none => trivial
    | some order => exact ⟨by omega, trivial, trivial, trivial⟩
  · have hlimit := h.limit
    cases hn : plan.limit with
    | none => trivial
    | some n => exact Json.isPrintable_natCast (hlimit n hn)

/-- **Plans are read back from their texts.** -/
theorem ofText?_toText (h : plan.IsPrintable) : ofText? plan.toText = some plan.reread := by
  rw [ofText?, toText, Json.parse_compact (h.toJson (by decide)), Option.bind_some, reread_toJson]
  exact ofJson?_toJson h.reread

end Plan

end ScreenedQuery
