import ScreenedQuery.CompiledQuery
import ScreenedQuery.Fragment
import ScreenedQuery.Proofs.Json.Range
import ScreenedQuery.Proofs.Plan.RoundTrip

/-!
# Data read back

Values, filters and compiled queries are written to JSON texts and read from them. A text that was
written is read as the data it was written from, whatever the strings, the bytes and the fields. A
text that comes from elsewhere may be laid out in other ways; what is read from it is read again
from the text that it is written to. All this holds as far as the numbers of the data that are not
whole are read from their own texts.

## Main definitions

* `Value.numbers`, `Filter.numbers`, `CompiledQuery.numbers`: the numbers of data
* `ReadsBack`: data of one type are read back from their texts

## Main results

* `Value.isPrintable_of_ofJson?`: numbers that are read are finite
* `data_readsBack`: values, filters and compiled queries are read back
-/

namespace ScreenedQuery

/-! ## Objects -/

theorem Json.membersPrintable_map {α : Type} {write : α → String × Json} {room : Nat}
    {items : List α} (h : ∀ item ∈ items, IsPrintable room (write item).2) :
    MembersPrintable room (items.map write) := by
  induction items with
  | nil => trivial
  | cons item items ih =>
    rw [List.forall_mem_cons] at h
    exact ⟨h.1, ih h.2⟩

theorem Json.rereadMembers_eq_map (members : List (String × Json)) :
    rereadMembers members = members.map fun member => (member.1, member.2.reread) := by
  induction members with
  | nil => rfl
  | cons member members ih => rw [rereadMembers, ih, List.map_cons]

/-- The members with a name are in range. -/
theorem Json.InRange.membersNamed {members : List (String × Json)} (h : (Json.object members).InRange)
    (name : String) : ∀ json ∈ membersNamed members name, json.InRange := by
  intro json hjson
  obtain ⟨member, hmember, rfl⟩ := List.mem_map.mp hjson
  cases h with
  | object hmembers => exact hmembers member (List.mem_filter.mp hmember).1

/-- The fields of a record that is in range are in range. -/
theorem Json.InRange.parts? {json : Json} (h : json.InRange) {names : List String} {closed : Bool}
    {parts : List (String × Json)} (hparts : json.parts? names closed = some parts) :
    ∀ part ∈ parts, part.2.InRange := by
  intro part hpart
  unfold Json.parts? at hparts
  cases h with
  | array hitems =>
    obtain ⟨-, hparts⟩ := Option.ite_none_right_eq_some.mp hparts
    cases hparts
    exact hitems part.2 (List.of_mem_zip hpart).2
  | object hmembers =>
    obtain ⟨-, hparts⟩ := Option.ite_none_right_eq_some.mp hparts
    cases hparts
    exact hmembers part (List.mem_filter.mp hpart).1
  | _ => cases hparts

/-- A field that is read was there. -/
theorem Json.exists_mem_of_required {α : Type} {parts : List (String × Json)} {name : String}
    {read : Json → Option α} {result : α} (h : required parts name read = some result) :
    ∃ part ∈ parts, read part.2 = some result := by
  obtain ⟨json, hjson, hread⟩ := Option.bind_eq_some_iff.mp h
  obtain ⟨before, after, hparts, -⟩ := List.lookup_eq_some_iff.mp hjson
  exact ⟨(name, json), by rw [hparts]; simp, hread⟩

/-- Items that are read are read from an array. -/
theorem Json.exists_mem_of_toList? {α : Type} {json : Json} {read : Json → Option α}
    {results : List α} (h : json.toList? read = some results) {result : α}
    (hresult : result ∈ results) :
    ∃ items, json = .array items ∧ ∃ item ∈ items, read item = some result := by
  unfold toList? at h
  split at h
  · exact ⟨_, rfl, exists_mem_of_mapM h hresult⟩
  · cases h

/-- Items that are read from data in range are in range. -/
theorem Json.InRange.exists_mem_of_toList? {α : Type} {json : Json} (h : json.InRange)
    {read : Json → Option α} {results : List α} (hresults : json.toList? read = some results)
    {result : α} (hresult : result ∈ results) :
    ∃ item, item.InRange ∧ read item = some result := by
  obtain ⟨items, rfl, item, hitem, hread⟩ := Json.exists_mem_of_toList? hresults hresult
  cases h with
  | array hitems => exact ⟨item, hitems item hitem, hread⟩

/-! ## Values -/

namespace Value

/-- The numbers of a value that are not whole. -/
def numbers : Value → List Binary64
  | float x => [x]
  | _ => []

theorem isPrintable_iff (value : Value) :
    value.IsPrintable ↔ ∀ x ∈ value.numbers, x.isFinite = true := by
  cases value <;> simp [IsPrintable, numbers]

theorem reread_eq_self {value : Value} (h : ∀ x ∈ value.numbers, x.reread = x) :
    value.reread = value := by
  cases value with
  | float x => exact congrArg float (h x (List.mem_singleton_self x))
  | _ => rfl

end Value

/-- A number that is read is finite; a whole one is rounded. -/
theorem Json.InRange.isFinite_toFloat? {json : Json} (h : json.InRange) {x : Binary64}
    (hx : json.toFloat? = some x) : x.isFinite = true := by
  cases h with
  | integer hlow hhigh =>
    cases hx
    have hmin : Int64.minValue.toInt = -9223372036854775808 := by decide
    have hsize : (UInt64.size : Int) = 18446744073709551616 := rfl
    have hlimit : 18446744073709551616 ≤ 10 ^ 308 := by decide +kernel
    exact Binary64.isFinite_ofInt_of_natAbs_le (le_trans (by omega) hlimit)
  | real hfinite =>
    cases hx
    exact hfinite
  | _ => cases hx

namespace Value

theorem isPrintable_of_ofTagged? {tag : String} {content : Option Json}
    (h : ∀ json ∈ content, json.InRange) {value : Value}
    (hread : ofTagged? tag content = some value) : value.IsPrintable := by
  cases value with
  | float x =>
    unfold ofTagged? at hread
    split at hread
    -- Only one of the tags stands for numbers.
    case h_5 json =>
      obtain ⟨y, hy, heq⟩ := Option.map_eq_some_iff.mp hread
      cases heq
      exact (h json rfl).isFinite_toFloat? hy
    all_goals simp at hread
  | _ => trivial

/-- **The numbers of a value that is read are finite.** -/
theorem isPrintable_of_ofJson? {json : Json} (h : json.InRange) {value : Value}
    (hread : ofJson? json = some value) : value.IsPrintable := by
  unfold ofJson? ofJsonBy? at hread
  split at hread
  · -- The tag and the content are the two items of an array.
    rename_i tag content
    obtain ⟨name, -, hread⟩ := Option.bind_eq_some_iff.mp hread
    cases h with
    | array hitems =>
      refine isPrintable_of_ofTagged? (fun json hjson => ?_) hread
      obtain rfl := Option.some.inj hjson
      exact hitems content (by simp)
  · rename_i members
    split at hread
    · obtain ⟨name, -, hread⟩ := Option.bind_eq_some_iff.mp hread
      refine isPrintable_of_ofTagged? (fun json hjson => ?_) hread
      exact absurd hjson (Option.not_mem_none json)
    · -- They are two of the members of an object, in whichever order.
      rename_i tag content _ hcontent
      obtain ⟨name, -, hread⟩ := Option.bind_eq_some_iff.mp hread
      refine isPrintable_of_ofTagged? (fun json hjson => ?_) hread
      obtain rfl := Option.some.inj hjson
      exact h.membersNamed "v" content (by rw [hcontent]; exact List.mem_singleton_self content)
    · cases hread
  · cases hread

end Value

/-! ## Filters -/

namespace Filter

/-- The numbers of a filter that are not whole. -/
def numbers (filter : Filter) : List Binary64 := filter.entries.flatMap (·.2.numbers)

theorem ofJson?_toJson (filter : Filter) : ofJson? filter.toJson = some filter := by
  have hentries : (filter.entries.map fun entry => (entry.1, entry.2.toJson)).mapM
      (fun member => (Value.ofJson? member.2).map (member.1, ·)) = some filter.entries :=
    mapM_map_eq_some fun entry _ => by
      rw [Value.ofJson?, Value.ofJsonBy?_toJson fun _ => rfl]
      rfl
  rw [toJson, ofJson?, hentries, Option.map_some, FieldMap.ofList_entries]

theorem reread_toJson {filter : Filter} (h : ∀ x ∈ filter.numbers, x.reread = x) :
    filter.toJson.reread = filter.toJson := by
  rw [toJson, Json.reread, Json.rereadMembers_eq_map, List.map_map]
  refine congrArg Json.object (List.map_congr_left fun entry hentry => ?_)
  have hvalue : entry.2.reread = entry.2 :=
    Value.reread_eq_self fun x hx => h x (List.mem_flatMap.mpr ⟨entry, hentry, hx⟩)
  rw [Function.comp_apply, Value.reread_toJson, hvalue]

theorem isPrintable_toJson {filter : Filter} (h : ∀ x ∈ filter.numbers, x.isFinite = true)
    {room : Nat} (hroom : 2 < room) : filter.toJson.IsPrintable room := by
  refine ⟨by omega, Json.membersPrintable_map fun entry hentry => ?_⟩
  have hvalue : entry.2.IsPrintable :=
    entry.2.isPrintable_iff.mpr fun x hx => h x (List.mem_flatMap.mpr ⟨entry, hentry, hx⟩)
  exact hvalue.toJson (by omega)

/-- The numbers of a filter that is read are finite. -/
theorem isFinite_of_ofJson? {json : Json} (h : json.InRange) {filter : Filter}
    (hread : ofJson? json = some filter) : ∀ x ∈ filter.numbers, x.isFinite = true := by
  intro x hx
  obtain ⟨entry, hentry, hx⟩ := List.mem_flatMap.mp hx
  unfold ofJson? at hread
  cases h with
  | object hmembers =>
    obtain ⟨pairs, hpairs, rfl⟩ := Option.map_eq_some_iff.mp hread
    obtain ⟨member, hmember, hread⟩ :=
      exists_mem_of_mapM hpairs (FieldMap.mem_of_mem_ofList hentry)
    obtain ⟨value, hvalue, rfl⟩ := Option.map_eq_some_iff.mp hread
    have hprintable := Value.isPrintable_of_ofJson? (hmembers member hmember) hvalue
    exact value.isPrintable_iff.mp hprintable x hx
  | _ => cases hread

end Filter

/-! ## Compiled queries -/

namespace CompiledQuery

/-- The numbers among the values of a query that are not whole. -/
def numbers (query : CompiledQuery) : List Binary64 := query.params.flatMap Value.numbers

theorem ofJson?_toJson (query : CompiledQuery) : ofJson? query.toJson = some query := by
  have hparams : Json.toList? Value.ofJson? (.array (query.params.map Value.toJson)) =
      some query.params :=
    toList?_map fun value _ => Value.ofJsonBy?_toJson (fun _ => rfl) value
  simp [ofJson?, toJson, Json.parts?, Json.membersNamed, Json.required, List.lookup_cons,
    Json.toText?, Json.toBool?, hparams]

theorem reread_toJson {query : CompiledQuery} (h : ∀ x ∈ query.numbers, x.reread = x) :
    query.toJson.reread = query.toJson := by
  have hparams : (query.params.map Value.toJson).map Json.reread =
      query.params.map Value.toJson := by
    rw [List.map_map]
    refine List.map_congr_left fun value hvalue => ?_
    rw [Function.comp_apply, Value.reread_toJson,
      Value.reread_eq_self fun x hx => h x (List.mem_flatMap.mpr ⟨value, hvalue, hx⟩)]
  simp only [toJson, Json.reread, Json.rereadMembers, Json.rereadItems_eq_map, hparams]

theorem isPrintable_toJson {query : CompiledQuery} (h : ∀ x ∈ query.numbers, x.isFinite = true)
    {room : Nat} (hroom : 3 < room) : query.toJson.IsPrintable room := by
  refine ⟨by omega, trivial, ⟨by omega, Json.arePrintable_map fun value hvalue => ?_⟩, trivial,
    trivial⟩
  have hprintable : value.IsPrintable :=
    value.isPrintable_iff.mpr fun x hx => h x (List.mem_flatMap.mpr ⟨value, hvalue, hx⟩)
  exact hprintable.toJson (by omega)

/-- The numbers of a compiled query that is read are finite. -/
theorem isFinite_of_ofJson? {json : Json} (h : json.InRange) {query : CompiledQuery}
    (hread : ofJson? json = some query) : ∀ x ∈ query.numbers, x.isFinite = true := by
  intro x hx
  obtain ⟨value, hvalue, hnumber⟩ := List.mem_flatMap.mp hx
  simp only [ofJson?, Option.bind_eq_bind, Option.bind_eq_some_iff] at hread
  obtain ⟨parts, hparts, text, -, params, hparams, transactional, -, hread⟩ := hread
  cases hread
  obtain ⟨part, hpart, hparams⟩ := Json.exists_mem_of_required hparams
  obtain ⟨item, hitem, hread⟩ :=
    (h.parts? hparts part hpart).exists_mem_of_toList? hparams hvalue
  exact value.isPrintable_iff.mp (Value.isPrintable_of_ofJson? hitem hread) x hnumber

end CompiledQuery

/-! ## Texts -/

/-- **Data of one type are read back from their texts**: data with finite numbers that are read from
their own texts, and, by way of the text they are written to, all data that are read from any text
at all, as far as their numbers are read from their own texts. -/
structure ReadsBack {α : Type} (write : α → Json) (read : Json → Option α)
    (numbers : α → List Binary64) : Prop where
  written : ∀ data, (∀ x ∈ numbers data, x.isFinite = true ∧ x.reread = x) →
    (Json.parse (write data).compact).bind read = some data
  read : ∀ text data, (Json.parse text).bind read = some data →
    (∀ x ∈ numbers data, x.reread = x) → (Json.parse (write data).compact).bind read = some data

/-- What is read back in JSON, and what has only finite numbers when it is read, is read back from
texts. -/
theorem readsBack {α : Type} {write : α → Json} {read : Json → Option α}
    {numbers : α → List Binary64} (hwrite : ∀ data, read (write data) = some data)
    (hreread : ∀ {data}, (∀ x ∈ numbers data, x.reread = x) → (write data).reread = write data)
    (hprintable : ∀ {data}, (∀ x ∈ numbers data, x.isFinite = true) →
      (write data).IsPrintable Json.nestingLimit)
    (hfinite : ∀ {json data}, json.InRange → read json = some data →
      ∀ x ∈ numbers data, x.isFinite = true) : ReadsBack write read numbers := by
  have hback {data : α} (hfinite : ∀ x ∈ numbers data, x.isFinite = true)
      (hsame : ∀ x ∈ numbers data, x.reread = x) :
      (Json.parse (write data).compact).bind read = some data := by
    rw [Json.parse_compact (hprintable hfinite), hreread hsame, Option.bind_some, hwrite]
  constructor
  · intro data h
    exact hback (fun x hx => (h x hx).1) fun x hx => (h x hx).2
  · -- Numbers that were read are finite, whichever text they come from.
    intro text data h hsame
    obtain ⟨json, hjson, hread⟩ := Option.bind_eq_some_iff.mp h
    exact hback (hfinite (Json.inRange_of_parse hjson) hread) hsame

theorem Value.readsBack : ReadsBack toJson ofJson? numbers := by
  refine ScreenedQuery.readsBack (fun value => ofJsonBy?_toJson (fun _ => rfl) value) ?_ ?_ ?_
  · intro value h
    rw [reread_toJson, reread_eq_self h]
  · intro value h
    exact (value.isPrintable_iff.mpr h).toJson (by decide)
  · intro json value h hread
    exact value.isPrintable_iff.mp (isPrintable_of_ofJson? h hread)

theorem Filter.readsBack : ReadsBack toJson ofJson? numbers :=
  ScreenedQuery.readsBack ofJson?_toJson reread_toJson
    (fun h => isPrintable_toJson h (by decide)) fun h hread => isFinite_of_ofJson? h hread

theorem CompiledQuery.readsBack : ReadsBack toJson ofJson? numbers :=
  ScreenedQuery.readsBack ofJson?_toJson reread_toJson
    (fun h => isPrintable_toJson h (by decide)) fun h hread => isFinite_of_ofJson? h hread

/-- **Nothing is lost in a text**: values, filters and compiled queries are read back. -/
theorem data_readsBack : ReadsBack Value.toJson Value.ofJson? Value.numbers ∧
    ReadsBack Filter.toJson Filter.ofJson? Filter.numbers ∧
    ReadsBack CompiledQuery.toJson CompiledQuery.ofJson? CompiledQuery.numbers :=
  ⟨Value.readsBack, Filter.readsBack, CompiledQuery.readsBack⟩

/-- A query with one half, with bytes and with a text of characters that are escaped, and a filter
that is read from another layout than its own: a field is given twice, and its last value has its
parts the other way round with one in between. -/
theorem data_readsBack_half :
    let half : Value := .float ⟨0x3FE0000000000000⟩
    let query : CompiledQuery := ⟨"a = \"b\\\"\n", [half, .bytes [0, 255], .string "é"], true⟩
    let text := "\x7b\"b\":\x7b\"t\":\"Null\"\x7d,\"a\":[\"Int\",1], \"a\":" ++
      "\x7b\"v\":5e-1,\"x\":[],\"t\":\"Float\"\x7d\x7d"
    let filter : Filter := .ofList [("a", half), ("b", .null)]
    (∀ x ∈ query.numbers, x.isFinite = true ∧ x.reread = x) ∧
      (Json.parse query.toJson.compact).bind CompiledQuery.ofJson? = some query ∧
      (Json.parse text).bind Filter.ofJson? = some filter ∧ (∀ x ∈ filter.numbers, x.reread = x) ∧
      (Json.parse filter.toJson.compact).bind Filter.ofJson? = some filter := by
  intro half query text filter
  have hquery : ∀ x ∈ query.numbers, x.isFinite = true ∧ x.reread = x := by decide +kernel
  have hread : (Json.parse text).bind Filter.ofJson? = some filter := by decide +kernel
  have hfilter : ∀ x ∈ filter.numbers, x.reread = x := by decide +kernel
  exact ⟨hquery, data_readsBack.2.2.written query hquery, hread, hfilter,
    data_readsBack.2.1.read text filter hread hfilter⟩

end ScreenedQuery
