import ScreenedQuery.Proofs.Number.Digits
import ScreenedQuery.Proofs.Sql.Groups
import ScreenedQuery.Proofs.Sql.Reading
import ScreenedQuery.Proofs.Text.Blank
import ScreenedQuery.Sql.Token

/-!
# The condition of a statement and what follows it

The expression behind `WHERE` goes up to the first word that begins another part of the statement,
outside of quoted runs and parentheses. It starts with the condition that is joined from the
clauses. Payloads are put behind the condition as they are, so that the text of a payload goes on
with the expression, unless it starts with such a word.

## Main definitions

* `Sql.beforeWord`: a text up to the first of some words
* `Sql.whereExpression?`: the expression behind `WHERE`
* `Sql.Passes`: a text in which none of the words is found

## Main results

* `Sql.Closed.passes_parenthesize`: a group holds no word
* `Sql.whereExpression?_statement`: the expression is the condition with what payloads add to it
* `Sql.sync_compile_whereExpression`: the same of the query of accepted fragments
-/

namespace ScreenedQuery.Sql

/-! ## Words outside of quotes and parentheses -/

/-- The word at the start of a text, in small letters. -/
def startWord (text : List Char) : List Char := lower (text.takeWhile isWordRest)

/-- The rest of a text up to the first of some words, when a quoted run, parentheses or a word may
stand open. -/
def beforeWordFrom (keywords : List (List Char)) (quote : Option Char) (depth : Nat)
    (inWord : Bool) : List Char → List Char
  | [] => []
  | c :: text =>
    if quote = none ∧ depth = 0 ∧ inWord = false ∧ startWord (c :: text) ∈ keywords then []
    else c :: beforeWordFrom keywords (nextQuote quote c) (nextDepth quote depth c)
      (isWordRest c) text

/-- **A text up to the first of some words** that stands outside of quoted runs and parentheses. -/
def beforeWord (keywords : List (List Char)) (text : List Char) : List Char :=
  beforeWordFrom keywords none 0 false text

/-- The words that end the condition of a statement. -/
def clauseKeywords : List (List Char) :=
  ["group", "having", "window", "order", "limit", "union", "except", "intersect"].map String.toList

def whereWord : List Char := ['w', 'h', 'e', 'r', 'e']

/-- A text without the gaps at its two ends. -/
def stripGaps (text : List Char) : List Char := (text.dropWhile isGap).rdropWhile isGap

/-- **The expression behind `WHERE`**, if the statement has one: up to the first word that begins
another part of the statement. -/
def whereExpression? (text : List Char) : Option (List Char) :=
  match text.drop (beforeWord [whereWord] text).length with
  | [] => none
  | behind => some (stripGaps (beforeWord clauseKeywords (behind.drop whereWord.length)))

example : whereExpression? "SELECT * FROM \"where\" WHERE (a OR (order)) LIMIT 3".toList =
    some "(a OR (order))".toList := by decide

/-! ## Texts without words -/

variable {keywords : List (List Char)}

/-- **A text in which none of the words is found**, and which ends outside of words. -/
def Passes (keywords : List (List Char)) (text : List Char) : Prop :=
  ∀ rest, beforeWord keywords (text ++ rest) = text ++ beforeWord keywords rest

namespace Passes

theorem nil : Passes keywords [] := fun _ => rfl

theorem append {first second : List Char} (hfirst : Passes keywords first)
    (hsecond : Passes keywords second) : Passes keywords (first ++ second) := by
  intro rest
  rw [List.append_assoc, hfirst, hsecond, List.append_assoc]

end Passes

/-- A character that no word starts with, outside of quoted runs. -/
theorem beforeWord_cons {c : Char} (hword : isWordRest c = false) (hkeywords : [] ∉ keywords)
    (text : List Char) :
    beforeWord keywords (c :: text) =
      c :: beforeWordFrom keywords (nextQuote none c) (nextDepth none 0 c) false text := by
  have hstart : startWord (c :: text) = [] := by simp [startWord, hword, lower]
  rw [beforeWord, beforeWordFrom, hstart, if_neg fun h => hkeywords h.2.2.2, hword]

/-- Between parentheses no word is found. -/
theorem beforeWordFrom_inside {quote after : Option Char} {opened : List Nat} {place : Nat}
    {text : List Char} (h : Scan.run ⟨quote, opened⟩ place text = some ⟨after, []⟩)
    (inWord : Bool) (rest : List Char) :
    ∃ last, beforeWordFrom keywords quote (opened.length + 1) inWord (text ++ rest) =
      text ++ beforeWordFrom keywords after 1 last rest := by
  induction text generalizing quote opened place inWord with
  | nil =>
    obtain ⟨rfl, rfl⟩ : quote = after ∧ opened = [] := by simpa using h
    exact ⟨inWord, rfl⟩
  | cons c text ih =>
    obtain ⟨next, hnext, hrun⟩ := advances_of_run h
    -- One parenthesis more stands open around the text.
    have hdepth := hnext.depth [0]
    rw [List.length_append, List.length_append, List.length_singleton] at hdepth
    obtain ⟨last, hlast⟩ := ih hrun (isWordRest c)
    refine ⟨last, ?_⟩
    rw [List.cons_append, beforeWordFrom, if_neg (by simp), hdepth, hlast]
    rfl

/-- **A group holds no word.** -/
theorem Closed.passes_parenthesize {text : List Char} (h : Closed text)
    (hkeywords : [] ∉ keywords) : Passes keywords (Sql.parenthesize text) := by
  intro rest
  obtain ⟨last, hinside⟩ : ∃ last, beforeWordFrom keywords none 1 false (text ++ ')' :: rest) =
      text ++ beforeWordFrom keywords none 1 last (')' :: rest) :=
    beforeWordFrom_inside h false (')' :: rest)
  have hright : beforeWordFrom keywords none 1 last (')' :: rest) =
      ')' :: beforeWord keywords rest := by
    rw [beforeWordFrom, if_neg (by simp)]
    rfl
  have hwhole : Sql.parenthesize text ++ rest = '(' :: (text ++ ')' :: rest) := by
    simp [Sql.parenthesize]
  have hleft : beforeWord keywords ('(' :: (text ++ ')' :: rest)) =
      '(' :: beforeWordFrom keywords none 1 false (text ++ ')' :: rest) :=
    beforeWord_cons rfl hkeywords _
  rw [hwhole, hleft, hinside, hright]
  simp [Sql.parenthesize]

/-- Up to the quote that closes a quoted run no word is found. -/
theorem beforeWordFrom_run {run : List Char} (h : '"' ∉ run) (inWord : Bool) (rest : List Char) :
    beforeWordFrom keywords (some '"') 0 inWord (run ++ '"' :: rest) =
      run ++ '"' :: beforeWord keywords rest := by
  induction run generalizing inWord with
  | nil =>
    rw [List.nil_append, beforeWordFrom, if_neg (by simp)]
    rfl
  | cons c run ih =>
    rw [List.mem_cons, not_or] at h
    have hquote : nextQuote (some '"') c = some '"' := by simp [nextQuote, Ne.symm h.1]
    rw [List.cons_append, beforeWordFrom, if_neg (by simp), hquote, nextDepth, ih h.2]
    rfl

/-- A name between quotes holds no word. -/
theorem IsQuotedName.passes {text : List Char} (h : IsQuotedName text)
    (hkeywords : [] ∉ keywords) : Passes keywords text := by
  obtain ⟨parts, -, hparts, rfl⟩ := h
  refine joinWith_induction .nil (fun _ _ => .append) ?_ ?_
  · exact beforeWord_cons rfl hkeywords
  · rw [List.forall_mem_map]
    intro part hpart rest
    have hwhole : quotePart part ++ rest = '"' :: (part ++ '"' :: rest) := by simp [quotePart]
    have hleft : beforeWord keywords ('"' :: (part ++ '"' :: rest)) =
        '"' :: beforeWordFrom keywords (some '"') 0 false (part ++ '"' :: rest) :=
      beforeWord_cons rfl hkeywords _
    rw [hwhole, hleft, beforeWordFrom_run (hparts part hpart)]
    simp [quotePart]

theorem nil_not_mem_clauseKeywords : [] ∉ clauseKeywords := by decide

theorem passes_connective (link : Link) : Passes clauseKeywords (connective link) := by
  intro rest
  cases link <;> rfl

theorem passes_joinFrom {joined : List Char} {whole : Bool} {rest : List (Link × List Char)}
    (hclosed : Closed joined) (hjoined : Passes clauseKeywords joined)
    (h : ∀ condition ∈ rest, Closed condition.2) :
    Passes clauseKeywords (joinFrom joined whole rest) := by
  induction rest generalizing joined whole with
  | nil => exact hjoined
  | cons condition rest ih =>
    rw [List.forall_mem_cons] at h
    have hleft : Passes clauseKeywords (if whole then joined else parenthesize joined) := by
      cases whole with
      | true => exact hjoined
      | false => exact hclosed.passes_parenthesize nil_not_mem_clauseKeywords
    have hgroup := h.1.passes_parenthesize nil_not_mem_clauseKeywords
    apply ih
    · exact (closed_left hclosed whole condition.1).append h.1.parenthesize
    · exact (hleft.append (passes_connective condition.1)).append hgroup
    · exact h.2

/-- **The condition of a statement holds no word that ends it.** -/
theorem passes_joinConditions {conditions : List (Link × List Char)}
    (h : ∀ condition ∈ conditions, Closed condition.2) :
    Passes clauseKeywords (joinConditions conditions) := by
  cases conditions with
  | nil => exact .nil
  | cons condition rest =>
    rw [List.forall_mem_cons] at h
    have hgroup := h.1.passes_parenthesize nil_not_mem_clauseKeywords
    exact passes_joinFrom h.1.parenthesize hgroup h.2

/-! ## The expression of a statement -/

/-- A text that starts and ends with a parenthesis. -/
def Enclosed (text : List Char) : Prop := ∃ inner, text = parenthesize inner

theorem enclosed_joinFrom {joined : List Char} {whole : Bool} {rest : List (Link × List Char)}
    (h : Enclosed joined) : Enclosed (joinFrom joined whole rest) := by
  induction rest generalizing joined whole with
  | nil => exact h
  | cons condition rest ih =>
    apply ih
    -- What is joined so far starts with a parenthesis, and a group is put behind it.
    obtain ⟨inner, hleft⟩ : Enclosed (if whole then joined else parenthesize joined) := by
      cases whole with
      | true => exact h
      | false => exact ⟨joined, rfl⟩
    refine ⟨inner ++ ')' :: (connective condition.1 ++ '(' :: condition.2), ?_⟩
    rw [hleft]
    simp [parenthesize]

theorem enclosed_joinConditions {conditions : List (Link × List Char)} (h : conditions ≠ []) :
    Enclosed (joinConditions conditions) := by
  cases conditions with
  | nil => exact absurd rfl h
  | cons condition rest => exact enclosed_joinFrom ⟨condition.2, rfl⟩

/-- Gaps are taken away before a text between parentheses, and behind what follows it. -/
theorem Enclosed.stripGaps_eq {text : List Char} (h : Enclosed text) (after : List Char) :
    stripGaps (' ' :: (text ++ after)) = text ++ after.rdropWhile isGap := by
  obtain ⟨inner, rfl⟩ := h
  have hstart (rest : List Char) : (' ' :: (parenthesize inner ++ rest)).dropWhile isGap =
      parenthesize inner ++ rest := rfl
  rw [stripGaps, hstart]
  induction after using List.reverseRecOn with
  | nil =>
    have hend : parenthesize inner = ('(' :: inner) ++ [')'] := rfl
    rw [List.append_nil, hend, List.rdropWhile_concat_neg _ _ _ (by decide), List.rdropWhile_nil,
      List.append_nil]
  | append_singleton after c ih =>
    rw [← List.append_assoc, List.rdropWhile_concat, List.rdropWhile_concat, ih]
    split
    · rfl
    · rw [List.append_assoc]

/-- **The expression of a statement** is its condition, and what the text behind it adds. -/
theorem whereExpression?_append {screen : Screen} {draft : Draft} {target : Target}
    (hname : screen.flagsField target.name = false)
    (hclosed : ∀ condition ∈ conditions draft, Closed condition.2) (hne : conditions draft ≠ [])
    (after : List Char) :
    whereExpression? (headText draft target ++ after) =
      some (joinConditions (conditions draft) ++
        (beforeWord clauseKeywords after).rdropWhile isGap) := by
  have hquoted := isQuotedName_quoteParts (isFieldName_of_flagsField hname)
  have hselect : Passes [whereWord] "SELECT * FROM ".toList := fun _ => rfl
  have hwhere (rest : List Char) : beforeWord [whereWord] (" WHERE ".toList ++ rest) = [' '] := rfl
  have hblank : Passes clauseKeywords [' '] := fun _ => rfl
  have hsplit : " WHERE ".toList = [' '] ++ "WHERE ".toList := rfl
  -- Up to the first `WHERE` there are the table and a blank.
  have hbefore (rest : List Char) : beforeWord [whereWord] (introText target ++ rest) =
      "SELECT * FROM ".toList ++ quoteParts target.name.toList ++ [' '] := by
    unfold introText
    rw [List.append_assoc, hselect.append (hquoted.passes (by decide)), hwhere]
  have hintro (rest : List Char) : introText target ++ rest =
      "SELECT * FROM ".toList ++ quoteParts target.name.toList ++ [' '] ++
        ("WHERE ".toList ++ rest) := by
    unfold introText
    rw [hsplit]
    simp only [List.append_assoc]
  have hpasses := hblank.append (passes_joinConditions hclosed)
  have hword (rest : List Char) : ("WHERE ".toList ++ rest).drop whereWord.length =
      [' '] ++ rest := rfl
  rw [headText_of_ne_nil hne, List.append_assoc, whereExpression?, hbefore, hintro,
    List.drop_left]
  split
  · rename_i hnil
    exact nomatch hnil
  · rename_i hsome
    rw [hword, ← List.append_assoc, hpasses]
    exact congrArg some ((enclosed_joinConditions hne).stripGaps_eq _)

/-! ## Payloads behind the condition -/

theorem isBlank_of_isGap {c : Char} (h : isGap c = true) : Unicode.isBlank c = true := by
  simp only [isGap, Bool.or_eq_true, beq_iff_eq] at h
  rcases h with (((rfl | rfl) | rfl) | rfl) | rfl <;> decide

theorem isGap_head_payload {draft : Draft} {payload : List Char} (h : payload ∈ payloads draft)
    {c : Char} (hc : c ∈ payload.head?) : isGap c = false := by
  obtain ⟨clause, -, hpayload⟩ := List.mem_filterMap.mp h
  have htrim : ∃ text, payload = Unicode.trim text := by
    unfold payloadOf? at hpayload
    split at hpayload
    · rename_i text
      exact ⟨text.toList, (Option.some.inj hpayload).symm⟩
    · exact nomatch hpayload
  obtain ⟨text, rfl⟩ := htrim
  have hblank := Unicode.isBlank_head_trim hc
  by_contra hgap
  rw [Bool.not_eq_false] at hgap
  rw [isBlank_of_isGap hgap] at hblank
  exact nomatch hblank

/-- A text is left out at once when it starts with one of the words, and else at least its first
character stands before them. -/
theorem beforeWord_append {after : List Char} (h : after.takeWhile isWordRest = []) (c : Char)
    (text : List Char) :
    beforeWord keywords (c :: text ++ after) =
      if startWord (c :: text) ∈ keywords then []
      else c :: beforeWordFrom keywords (nextQuote none c) (nextDepth none 0 c) (isWordRest c)
        (text ++ after) := by
  have hstart : startWord (c :: text ++ after) = startWord (c :: text) := by
    rw [startWord, takeWhile_append_of_eq_nil h]
    rfl
  rw [← hstart, List.cons_append, beforeWord, beforeWordFrom]
  simp

/-- **Payloads add nothing to the condition exactly when the first one that is not empty starts with
a word that ends it.** -/
theorem beforeWord_payloads_iff {payloads : List (List Char)}
    (h : ∀ payload ∈ payloads, ∀ c ∈ payload.head?, isGap c = false) :
    (beforeWord clauseKeywords (payloads.flatMap (' ' :: ·))).rdropWhile isGap = [] ↔
      ∀ payload ∈ payloads.find? (!·.isEmpty), startWord payload ∈ clauseKeywords := by
  have hblank : Passes clauseKeywords [' '] := fun _ => rfl
  induction payloads with
  | nil => simp [beforeWord, beforeWordFrom]
  | cons payload rest ih =>
    rw [List.forall_mem_cons] at h
    have hcons : (payload :: rest).flatMap (' ' :: ·) =
        [' '] ++ (payload ++ rest.flatMap (' ' :: ·)) := by simp
    rw [hcons, hblank, List.rdropWhile_eq_nil_iff]
    rw [List.rdropWhile_eq_nil_iff] at ih
    cases payload with
    | nil =>
      -- An empty payload is a gap more.
      simpa [isGap] using ih h.2
    | cons c payload =>
      have hstop : (rest.flatMap (' ' :: ·)).takeWhile isWordRest = [] := by
        cases rest <;> rfl
      have hfind : ((c :: payload) :: rest).find? (!·.isEmpty) = some (c :: payload) := rfl
      rw [hfind, beforeWord_append hstop]
      simp only [Option.mem_some_iff, forall_eq']
      split
      · rename_i hword
        simp [hword, isGap]
      · -- The first character of a payload is no gap.
        rename_i hword
        have hc : isGap c = false := h.1 c rfl
        simp [hword, hc]

/-- **The expression of a query.** Fragments that a sync with this backend accepts are compiled, the
raw filters among them are closed, and there is a condition. Then the condition reads as the tree of
the clauses, and the expression behind `WHERE` is this condition with the text that follows, up to
the first word that begins another part of the statement. It is exactly the condition when the first
payload that is not empty starts with such a word. -/
theorem sync_compile_whereExpression {screen : Screen} {database : Database}
    {fragments : List Fragment} {tally : Tally} {query : CompiledQuery} :
    let engine : Engine := { backend := some (backend screen database) }
    let synced := engine.sync ⟨fragments⟩ tally
    let draft := synced.engine.draft
    let condition := joinConditions (conditions draft)
    synced.outcome = .ok () → (synced.engine.compile synced.tally).1 = .ok query →
      (∀ link raw, .raw link raw ∈ fragments → Closed raw.toList) → conditions draft ≠ [] →
        (∃ tree, draftReading? draft = some tree ∧ Reads .disjunction (words condition) tree) ∧
        whereExpression? query.text.toList =
          some (condition ++ (beforeWord clauseKeywords (trailingText draft)).rdropWhile isGap) ∧
        (whereExpression? query.text.toList = some condition ↔
          ∀ payload ∈ (payloads draft).find? (!·.isEmpty), startWord payload ∈ clauseKeywords) := by
  intro engine synced draft condition hsync hcompile hraw hne
  obtain ⟨target, hcomposed⟩ : ∃ target, Composed screen fragments draft target query :=
    composed_of_sync hsync hcompile
  have hclosed : ∀ link text, .raw link text ∈ draft.clauses → Closed text.toList :=
    fun link text hmem => hraw link text ((hcomposed.raw link text).mp hmem)
  have hconditions := closed_conditions hcomposed.writable hclosed
  have hexpression : whereExpression? query.text.toList =
      some (condition ++ (beforeWord clauseKeywords (trailingText draft)).rdropWhile isGap) := by
    rw [hcomposed.text]
    exact whereExpression?_append hcomposed.name hconditions hne _
  refine ⟨?_, hexpression, ?_⟩
  · have hrenders := forall₂_renders hcomposed.writable hclosed
    rcases reads_joinConditions hrenders with ⟨hnil, -⟩ | ⟨-, tree, htree, hreads⟩
    · exact absurd hnil hne
    · exact ⟨tree, htree, hreads⟩
  · rw [hexpression, Option.some.injEq, List.append_right_eq_self]
    exact beforeWord_payloads_iff fun payload hmem c hc => isGap_head_payload hmem hc

/-- A payload with an order adds nothing to the condition. -/
theorem sync_compile_whereExpression_order :
    let engine : Engine := { backend := some (backend {} []) }
    let fragments := [.structured .start (.ofList [("id", .int 1)]), .find ⟨"users", 0⟩,
      .raw .or "name = 'where'", .misc (.string " Order by id")]
    let synced := engine.sync ⟨fragments⟩ {}
    let text := "SELECT * FROM \"users\" WHERE (\"id\" = ?1) OR (name = 'where') Order by id"
    synced.outcome = .ok () ∧
      (synced.engine.compile synced.tally).1 = .ok ⟨text, [.int 1], false⟩ ∧
      (∀ link raw, .raw link raw ∈ fragments → Closed raw.toList) ∧
      conditions synced.engine.draft ≠ [] ∧
      whereExpression? text.toList = some "(\"id\" = ?1) OR (name = 'where')".toList := by
  intro engine fragments synced text
  have hsync : synced.outcome = .ok () := by
    decide +kernel
  have hcompile : (synced.engine.compile synced.tally).1 = .ok ⟨text, [.int 1], false⟩ := by
    decide +kernel
  have hraw : ∀ link raw, .raw link raw ∈ fragments → Closed raw.toList := by
    intro link raw hmem
    obtain ⟨-, rfl⟩ : link = .or ∧ raw = "name = 'where'" := by
      simpa [fragments, Fragment.find] using hmem
    decide
  have hne : conditions synced.engine.draft ≠ [] := by
    decide +kernel
  obtain ⟨-, -, hiff⟩ := sync_compile_whereExpression hsync hcompile hraw hne
  exact ⟨hsync, hcompile, hraw, hne, hiff.mpr (by decide +kernel)⟩

/-- **A payload may go on with the condition**: the screen lets a further operand pass, and it
stands behind the condition as it was written. -/
theorem sync_compile_whereExpression_ne :
    let engine : Engine := { backend := some (backend {} []) }
    let fragments := [.structured .start (.ofList [("id", .int 1)]), .find ⟨"users", 0⟩,
      .misc (.string "OR id > 0")]
    let synced := engine.sync ⟨fragments⟩ {}
    let text := "SELECT * FROM \"users\" WHERE (\"id\" = ?1) OR id > 0"
    synced.outcome = .ok () ∧
      (synced.engine.compile synced.tally).1 = .ok ⟨text, [.int 1], false⟩ ∧
      (∀ link raw, .raw link raw ∉ fragments) ∧
      joinConditions (conditions synced.engine.draft) = "(\"id\" = ?1)".toList ∧
      whereExpression? text.toList = some "(\"id\" = ?1) OR id > 0".toList := by
  intro engine fragments synced text
  refine ⟨?_, ?_, by simp [fragments, Fragment.find], ?_, ?_⟩
  · decide +kernel
  · decide +kernel
  · decide +kernel
  · decide +kernel

end ScreenedQuery.Sql
