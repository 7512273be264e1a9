import ScreenedQuery.Json.Reader
import ScreenedQuery.Json.Writer
import ScreenedQuery.Proofs.Json.Number

/-!
# JSON texts read back

The compact text of a value is read as this value: strings with whatever characters, whole numbers
of 64 bits, arrays and objects that are not nested too deeply, members in their order. A number
that is not whole is read as a finite number again, though not always as the same one.

## Main definitions

* `Json.IsPrintable`: the values with a text that is read
* `Json.reread`: what the text of a value is read as

## Main results

* `Json.readString_quote`: strings are read back
* `Json.parse_compact`: values are read back, their numbers as `Binary64.reread` tells
-/

namespace ScreenedQuery.Json

/-! ## Strings -/

/-- What a character of a string is read as: a unit if it is escaped by its number. -/
def pieceOf (c : Char) : Piece :=
  if c.toNat < 0x20 ∧ c ∉ ['\x08', '\t', '\n', '\x0c', '\r'] then .unit c.toNat else .char c

/-- An escaped character is read as one piece. -/
theorem readPieces_escape (c : Char) {text rest : List Char} {pieces : List Piece}
    (h : readPieces text = some (pieces, rest)) :
    readPieces (escape c ++ text) = some (pieceOf c :: pieces, rest) := by
  unfold escape
  split
  -- The characters with an escape of their own are single cases; only the last one is split again.
  case h_8 hquote hback hb ht hn hf hr =>
    split
    · -- The two digits are those of a number below two times sixteen.
      rename_i hc
      have hunit : ∀ n < 0x20, hexUnit? '0' '0' (Nat.digitChar (n / 16)) (Nat.digitChar (n % 16)) =
        some n := by decide
      have hpiece : pieceOf c = .unit c.toNat :=
        if_pos ⟨hc, by simpa using ⟨hb, ht, hn, hf, hr⟩⟩
      simp [readPieces, h, hunit _ hc, hpiece]
    · rename_i hc
      have hpiece : pieceOf c = .char c := if_neg fun hunit => hc hunit.1
      have hplain : ¬(c.toNat < 0x20 ∨ c = '\\') := fun hor => hor.elim hc hback
      rw [List.singleton_append, readPieces, if_neg hplain, h, hpiece]
      · rfl
      · exact hquote
      · exact fun _ _ _ _ _ hslash => absurd hslash hback
      · exact fun _ _ hslash => absurd hslash hback
  all_goals simp [readPieces, h, escaped?, pieceOf]

/-- A unit that is no half of a surrogate pair is a character. -/
theorem joinPieces_unit {n : Nat} (h : n < 0x20) (pieces : List Piece) :
    joinPieces (.unit n :: pieces) = (joinPieces pieces).map (Char.ofNat n :: ·) := by
  have hhigh : isHighSurrogate n = false := by simp [isHighSurrogate]; omega
  have hlow : isLowSurrogate n = false := by simp [isLowSurrogate]; omega
  cases pieces with
  | nil => simp [joinPieces, hhigh, hlow]
  | cons piece pieces => cases piece <;> simp [joinPieces, hhigh, hlow]

theorem joinPieces_pieceOf (c : Char) (pieces : List Piece) :
    joinPieces (pieceOf c :: pieces) = (joinPieces pieces).map (c :: ·) := by
  unfold pieceOf
  split
  · rename_i hc
    rw [joinPieces_unit hc.1, Char.ofNat_toNat]
  · rw [joinPieces]

/-- **Strings are read back.** -/
theorem readString_quote (s : String) (rest : List Char) :
    readString (s.toList.flatMap escape ++ '"' :: rest) = some (some s, rest) := by
  have hpieces (chars : List Char) : readPieces (chars.flatMap escape ++ '"' :: rest) =
      some (chars.map pieceOf, rest) := by
    induction chars with
    | nil => rfl
    | cons c chars ih =>
      rw [List.flatMap_cons, List.append_assoc]
      exact readPieces_escape c ih
  have hjoin (chars : List Char) : joinPieces (chars.map pieceOf) = some chars := by
    induction chars with
    | nil => rfl
    | cons c chars ih => rw [List.map_cons, joinPieces_pieceOf, ih]; rfl
  simp only [readString, hpieces, hjoin, Option.map_some, String.ofList_toList]

/-! ## Values -/

mutual

/-- **The values with a text that is read** where at most `room` arrays and objects may be nested:
numbers are finite, and whole ones fit 64 bits. -/
def IsPrintable (room : Nat) : Json → Prop
  | null | bool _ | string _ => True
  | integer n => Int64.minValue.toInt ≤ n ∧ n < UInt64.size
  | real x => x.isFinite = true
  | array items => 0 < room ∧ ArePrintable (room - 1) items
  | object members => 0 < room ∧ MembersPrintable (room - 1) members
  | unreadable => False

/-- Values that all have a text that is read. -/
def ArePrintable (room : Nat) : List Json → Prop
  | [] => True
  | item :: items => IsPrintable room item ∧ ArePrintable room items

/-- Members the values of which have a text that is read. -/
def MembersPrintable (room : Nat) : List (String × Json) → Prop
  | [] => True
  | (_, value) :: members => IsPrintable room value ∧ MembersPrintable room members

end

mutual

/-- **What the text of a value is read as**: the value, with each number that is not whole read
from its own text. -/
def reread : Json → Json
  | real x => real x.reread
  | array items => array (rereadItems items)
  | object members => object (rereadMembers members)
  | json => json

/-- What the texts of items are read as. -/
def rereadItems : List Json → List Json
  | [] => []
  | item :: items => reread item :: rereadItems items

/-- What the texts of members are read as, their names kept. -/
def rereadMembers : List (String × Json) → List (String × Json)
  | [] => []
  | (name, value) :: members => (name, reread value) :: rereadMembers members

end

theorem rereadItems_eq_map (items : List Json) : rereadItems items = items.map reread := by
  induction items with
  | nil => rfl
  | cons item items ih => rw [rereadItems, ih, List.map_cons]

/-- The start of a text that is no blank and closes nothing. -/
def Opens (text : List Char) : Prop :=
  ∃ c rest, text = c :: rest ∧ isSpace c = false ∧ c ≠ ']' ∧ c ≠ '\x7d'

theorem Opens.append {text : List Char} (h : Opens text) (rest : List Char) :
    Opens (text ++ rest) := by
  obtain ⟨c, more, rfl, hc⟩ := h
  exact ⟨c, more ++ rest, rfl, hc⟩

theorem Opens.skipSpace_eq {text : List Char} (h : Opens text) : skipSpace text = text := by
  obtain ⟨c, rest, rfl, hc, -⟩ := h
  simp [skipSpace, hc]

/-- A number starts with a digit or a sign. -/
theorem start_of_readNumber {text : List Char} (h : (readNumber text).isSome) :
    ∃ c rest, text = c :: rest ∧ (c = '-' ∨ c.isDigit = true) := by
  cases text with
  | nil => simp [readNumber, Number.splitDigits, isWholeForm] at h
  | cons c rest =>
    refine ⟨c, rest, rfl, ?_⟩
    by_contra hstart
    rw [not_or] at hstart
    obtain ⟨hsign, hdigit⟩ := hstart
    rw [readNumber] at h
    · simp [Number.splitDigits, hdigit, isWholeForm] at h
    · exact fun _ hminus => hsign (List.cons.inj hminus).1

theorem opens_of_readNumber {text : List Char} (h : (readNumber text).isSome) : Opens text := by
  obtain ⟨c, rest, rfl, hc⟩ := start_of_readNumber h
  have hne (d : Char) (hd : ¬(d = '-' ∨ d.isDigit = true)) : c ≠ d := fun heq => hd (heq ▸ hc)
  exact ⟨c, rest, rfl, by simp [isSpace, hne ' ', hne '\t', hne '\n', hne '\r'], hne _ (by decide),
    hne _ (by decide)⟩

/-- A text that is a number is read as this number. -/
theorem readValue_of_readNumber {text : List Char} {result : Json × List Char}
    (h : readNumber text = some result) (steps room : Nat) :
    readValue (steps + 1) room text = some result := by
  have hsome : (readNumber text).isSome := by rw [h]; rfl
  rw [readValue, (opens_of_readNumber hsome).skipSpace_eq]
  obtain ⟨c, rest, rfl, hc⟩ := start_of_readNumber hsome
  -- No other value starts like a number.
  split
  case h_7 => exact h
  all_goals
    rename_i heq
    exact absurd ((List.cons.inj heq).1 ▸ hc) (by decide)

theorem endsNumber_nil : EndsNumber [] := nofun

theorem endsNumber_cons {c : Char} (hc : c = ',' ∨ c = ']' ∨ c = '\x7d') (text : List Char) :
    EndsNumber (c :: text) := by
  intro d hd
  obtain rfl : c = d := by simpa using hd
  rcases hc with rfl | rfl | rfl <;> decide

/-- The text of a value starts neither with a blank nor with what closes. -/
theorem opens_compactChars {room : Nat} {json : Json} (h : IsPrintable room json) :
    Opens (compactChars json) := by
  cases json with
  | integer n =>
    have hnumber := readNumber_wholeText h.1 h.2 endsNumber_nil
    rw [List.append_nil] at hnumber
    exact opens_of_readNumber (by rw [compactChars, hnumber]; rfl)
  | real x =>
    have hnumber := Binary64.readNumber_jsonText h endsNumber_nil
    rw [List.append_nil] at hnumber
    exact opens_of_readNumber (by rw [compactChars, hnumber]; rfl)
  | bool b => cases b <;> exact ⟨_, _, rfl, by decide⟩
  | unreadable => exact absurd h id
  | _ => exact ⟨_, _, rfl, by decide⟩

theorem Opens.ne {text : List Char} (h : Opens text) (rest : List Char) :
    text ≠ ']' :: rest ∧ text ≠ '\x7d' :: rest := by
  obtain ⟨c, more, rfl, -, hbracket, hbrace⟩ := h
  exact ⟨fun heq => hbracket (List.cons.inj heq).1, fun heq => hbrace (List.cons.inj heq).1⟩

/-- An array of items that are read. -/
theorem readValue_array {steps room : Nat} {text rest : List Char} {items : List Json}
    (hroom : 0 < room) (hopens : Opens text)
    (h : readItems steps (room - 1) text = some (items, rest)) :
    readValue (steps + 1) room ('[' :: text) = some (array items, rest) := by
  have hbracket : skipSpace ('[' :: text) = '[' :: text := rfl
  have hne := fun rest => (hopens.ne rest).1
  simp [readValue, hbracket, hopens.skipSpace_eq, h, ofItems, hroom.ne']

theorem ofMembers_map {room : Nat} (hroom : 0 < room) (members : List (String × Json)) :
    ofMembers room (members.map fun member => (some member.1, member.2)) = object members := by
  have hnames (read : Option String × Json → Option (String × Json))
      (hread : ∀ name value, read (some name, value) = some (name, value)) :
      (members.map fun member => (some member.1, member.2)).mapM read = some members := by
    induction members with
    | nil => rfl
    | cons member members ih => simp [List.mapM_cons, hread, ih]
  rw [ofMembers, if_neg hroom.ne', hnames _ fun _ _ => rfl]

/-- An object of members that are read. -/
theorem readValue_object {steps room : Nat} {text rest : List Char}
    {members : List (String × Json)} (hroom : 0 < room) (hopens : Opens text)
    (h : readMembers steps (room - 1) text =
      some (members.map fun member => (some member.1, member.2), rest)) :
    readValue (steps + 1) room ('\x7b' :: text) = some (object members, rest) := by
  have hbrace : skipSpace ('\x7b' :: text) = '\x7b' :: text := rfl
  have hne := fun rest => (hopens.ne rest).2
  simp [readValue, hbrace, hopens.skipSpace_eq, h, ofMembers_map hroom]

theorem opens_compactItems {room : Nat} {item : Json} (h : IsPrintable room item)
    (items : List Json) : Opens (compactItems (item :: items)) := by
  cases items with
  | nil => exact opens_compactChars h
  | cons next items => exact (opens_compactChars h).append _

theorem opens_compactMembers (member : String × Json) (members : List (String × Json)) :
    Opens (compactMembers (member :: members)) := by
  cases members <;> exact ⟨_, _, rfl, by decide⟩

/-- The last member. -/
theorem readMembers_last {steps room : Nat} {value : Json} {text rest : List Char} (name : String)
    (h : readValue steps room text = some (value, '\x7d' :: rest)) :
    readMembers (steps + 1) room (quote name ++ ':' :: text) =
      some ([(some name, value)], rest) := by
  simp [quote, readMembers, skipSpace, isSpace, readString_quote, h]

/-- A member that is not the last one. -/
theorem readMembers_more {steps room : Nat} {value : Json} {text more rest : List Char}
    {members : List (Option String × Json)} (name : String)
    (h : readValue steps room text = some (value, ',' :: more))
    (hmore : readMembers steps room more = some (members, rest)) :
    readMembers (steps + 1) room (quote name ++ ':' :: text) =
      some ((some name, value) :: members, rest) := by
  simp [quote, readMembers, skipSpace, isSpace, readString_quote, h, hmore]

-- The induction is on the value. Two steps for each character are enough: one step opens a value,
-- and one goes on behind it.

mutual

/-- **Values are read back**, whatever follows them that is not a part of a number. -/
theorem readValue_compactChars : ∀ (json : Json) {room steps : Nat}, IsPrintable room json →
    2 * (compactChars json).length < steps → ∀ {rest : List Char}, EndsNumber rest →
      readValue steps room (compactChars json ++ rest) = some (json.reread, rest)
  | null, _, steps + 1, _, _, rest, _ => rfl
  | bool true, _, steps + 1, _, _, rest, _ => rfl
  | bool false, _, steps + 1, _, _, rest, _ => rfl
  | integer n, _, steps + 1, h, _, rest, hrest =>
    readValue_of_readNumber (readNumber_wholeText h.1 h.2 hrest) steps _
  | real _, _, steps + 1, h, _, rest, hrest =>
    readValue_of_readNumber (Binary64.readNumber_jsonText h hrest) steps _
  | string s, _, steps + 1, _, _, rest, _ => by
    simp [reread, compactChars, quote, readValue, skipSpace, isSpace, readString_quote]
  | array [], room, steps + 1, h, _, rest, _ => by
    simp [reread, rereadItems, compactChars, compactItems, readValue, skipSpace, isSpace, ofItems,
      h.1.ne']
  | array (item :: items), room, steps + 1, h, hsteps, rest, _ => by
    simp only [compactChars, List.length_cons, List.length_append, List.length_nil] at hsteps
    rw [compactChars, List.cons_append, List.append_assoc]
    exact readValue_array h.1 ((opens_compactItems h.2.1 items).append _)
      (readItems_compactItems item items h.2 (by omega) rest)
  | object [], room, steps + 1, h, _, rest, _ => by
    simp [reread, rereadMembers, compactChars, compactMembers, readValue, skipSpace, isSpace,
      ofMembers, h.1.ne']
  | object (member :: members), room, steps + 1, h, hsteps, rest, _ => by
    simp only [compactChars, List.length_cons, List.length_append, List.length_nil] at hsteps
    rw [compactChars, List.cons_append, List.append_assoc]
    exact readValue_object h.1 ((opens_compactMembers member members).append _)
      (readMembers_compactMembers member members h.2 (by omega) rest)

/-- Items are read back up to the bracket behind them. -/
theorem readItems_compactItems : ∀ (item : Json) (items : List Json) {room steps : Nat},
    ArePrintable room (item :: items) → 2 * (compactItems (item :: items)).length + 1 < steps →
      ∀ rest : List Char, readItems steps room (compactItems (item :: items) ++ ']' :: rest) =
        some (rereadItems (item :: items), rest)
  | item, [], room, steps + 1, h, hsteps, rest => by
    rw [compactItems] at hsteps ⊢
    have hitem := readValue_compactChars item h.1 (by omega : _ < steps)
      (endsNumber_cons (.inr (.inl rfl)) rest)
    rw [readItems, hitem]
    simp [rereadItems, skipSpace, isSpace]
  | item, next :: items, room, steps + 1, h, hsteps, rest => by
    simp only [compactItems, List.length_cons, List.length_append] at hsteps
    have hitem := readValue_compactChars item h.1 (by omega : _ < steps)
      (endsNumber_cons (.inl rfl) (compactItems (next :: items) ++ ']' :: rest))
    have hitems := readItems_compactItems next items h.2 (by omega : _ < steps) rest
    rw [compactItems, List.append_assoc, List.cons_append, readItems, hitem]
    · simp [rereadItems, skipSpace, isSpace, hitems]
    · exact List.cons_ne_nil _ _

/-- Members are read back up to the brace behind them. -/
theorem readMembers_compactMembers : ∀ (member : String × Json) (members : List (String × Json))
    {room steps : Nat}, MembersPrintable room (member :: members) →
      2 * (compactMembers (member :: members)).length + 1 < steps → ∀ rest : List Char,
        readMembers steps room (compactMembers (member :: members) ++ '\x7d' :: rest) =
          some ((rereadMembers (member :: members)).map fun member => (some member.1, member.2),
            rest)
  | (name, value), [], room, steps + 1, h, hsteps, rest => by
    simp only [compactMembers, List.length_cons, List.length_append] at hsteps
    have hvalue := readValue_compactChars value h.1 (by omega : _ < steps)
      (endsNumber_cons (.inr (.inr rfl)) rest)
    rw [compactMembers, List.append_assoc, List.cons_append]
    exact readMembers_last name hvalue
  | (name, value), next :: members, room, steps + 1, h, hsteps, rest => by
    simp only [compactMembers, List.length_cons, List.length_append] at hsteps
    have hvalue := readValue_compactChars value h.1 (by omega : _ < steps)
      (endsNumber_cons (.inl rfl) (compactMembers (next :: members) ++ '\x7d' :: rest))
    have hmembers := readMembers_compactMembers next members h.2 (by omega : _ < steps) rest
    rw [compactMembers, List.append_assoc, List.cons_append, List.append_assoc, List.cons_append]
    · exact readMembers_more name hvalue hmembers
    · exact List.cons_ne_nil _ _

end

/-- **Values are read back**, their numbers as `reread` tells. -/
theorem parse_compact {json : Json} (h : IsPrintable nestingLimit json) :
    parse json.compact = some json.reread := by
  have hread := readValue_compactChars json h (by omega :
    2 * (compactChars json).length < 2 * (compactChars json).length + 2) endsNumber_nil
  rw [List.append_nil] at hread
  rw [parse, compact, String.toList_ofList, hread]
  rfl

end ScreenedQuery.Json
