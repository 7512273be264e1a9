import ScreenedQuery.Proofs.Engine.Run
import ScreenedQuery.Proofs.Sql.Conditions

/-!
# Who has passed the parts of a statement

The backend of an engine can be exchanged between a sync and the compilation of the draft. The
names and the payloads of a statement are screened when it is written, so that the screen that
writes them has passed them. The text of a raw filter is screened when it is synced, by the backend
that the engine has then, and is not looked at again.

## Main definitions

* `Bench.Took`: a fragment that the draft has taken since the last reset, with the backend of then

## Main results

* `Bench.took_iff`: the fragments that the draft has taken are those it has accepted
* `Bench.Took.text`: a text that was taken has passed the backend of then
* `Sql.payload_of_statement`: the screen of a statement has passed the payloads
* `Sql.run_compile_consented`: the parts of a statement, and who has passed them
* `Sql.run_compile_not_consented`: a raw filter that the screen of the statement flags
-/

namespace ScreenedQuery

/-! ## Fragments and the backend that was in charge -/

namespace Bench

/-- The rules have admitted the fragments that a sync accepts. -/
theorem admitsAll_syncAccepts {bench : Bench} {history : List Fragment}
    (h : Holds history bench.engine.draft) :
    Draft.AdmitsAll bench.engine.backend history bench.syncAccepts := by
  cases hattached : bench.attached with
  | none =>
    simpa [syncAccepts, attachedQueue, hattached, Queue.empty] using Draft.admitsAll_nil
  | some number =>
    by_cases hpoisoned : bench.engine.draft.poisoned = true
    · -- A poisoned draft takes nothing, and the tally stands still.
      simpa [syncAccepts, sync, hattached, Engine.sync, hpoisoned] using Draft.admitsAll_nil
    · have hdraft := h.eq_of_not_poisoned (by simpa using hpoisoned)
      have haccepts : bench.syncAccepts = (bench.queue number).items.take
          (Draft.drain bench.engine.backend bench.engine.draft
            (bench.queue number).items).accepted := by
        simp [syncAccepts, attachedQueue, sync, hattached, Engine.sync, hpoisoned]
      rw [haccepts, hdraft]
      rcases Draft.admitsAll_or_refuses bench.engine.backend history (bench.queue number).items with
        hall | ⟨middle, fragment, after, error, hsplit, hall, hrefuses⟩
      · rw [Draft.drain_of_admitsAll hall, List.take_length]
        exact hall
      · rw [hsplit, Draft.drain_of_refuses hall hrefuses, List.take_left]
        exact hall

/-- **A fragment that the draft of a run has taken** since the last reset: a sync has accepted it,
with the backend that the engine had then. -/
def Took (commands : List Command) (backend : Option Backend) (fragment : Fragment) : Prop :=
  ∃ before after, commands = before ++ .sync :: after ∧ .reset ∉ after ∧
    (run {} before).engine.backend = backend ∧ fragment ∈ (run {} before).syncAccepts

theorem Took.behind {commands : List Command} {backend : Option Backend} {fragment : Fragment}
    (h : Took commands backend fragment) {command : Command} (hreset : command ≠ .reset) :
    Took (commands ++ [command]) backend fragment := by
  obtain ⟨before, after, rfl, hafter, hbackend, hmem⟩ := h
  refine ⟨before, after ++ [command], by simp, ?_, hbackend, hmem⟩
  simpa using ⟨hafter, Ne.symm hreset⟩

/-- A fragment that was taken before the last command, or by it. -/
theorem took_append_singleton_iff {commands : List Command} {command : Command}
    {fragment : Fragment} :
    (∃ backend, Took (commands ++ [command]) backend fragment) ↔
      command ≠ .reset ∧ ((∃ backend, Took commands backend fragment) ∨
        command = .sync ∧ fragment ∈ (run {} commands).syncAccepts) := by
  constructor
  · rintro ⟨backend, before, after, hsplit, hafter, hbackend, hmem⟩
    rcases eq_last_or_before hsplit.symm with ⟨rfl, rfl, rfl⟩ | ⟨rest, rfl, rfl⟩
    · -- The sync in question is the last command.
      exact ⟨nofun, .inr ⟨rfl, hmem⟩⟩
    · rw [List.mem_append, List.mem_singleton, not_or] at hafter
      exact ⟨Ne.symm hafter.2, .inl ⟨backend, before, rest, rfl, hafter.1, hbackend, hmem⟩⟩
  · rintro ⟨hreset, ⟨backend, htook⟩ | ⟨rfl, hmem⟩⟩
    · exact ⟨backend, htook.behind hreset⟩
    · exact ⟨_, commands, [], rfl, List.not_mem_nil, rfl, hmem⟩

/-- **The fragments that the draft has taken are those it has accepted.** -/
theorem took_iff {commands : List Command} {fragment : Fragment} :
    (∃ backend, Took commands backend fragment) ↔ fragment ∈ accepted {} commands := by
  induction commands using List.reverseRecOn with
  | nil => simp [Took]
  | append_singleton commands command ih =>
    rw [took_append_singleton_iff, ih, accepted_append_singleton]
    cases command <;> simp [acceptedBehind]

/-- **A text that was taken has passed the backend of then.** -/
theorem Took.text {commands : List Command} {backend : Option Backend} {link : Link}
    {text : String} (h : Took commands backend (.raw link text)) :
    ∃ b, backend = some b ∧ b.flagsText text = false := by
  obtain ⟨before, after, -, -, rfl, hmem⟩ := h
  obtain ⟨first, rest, hsplit⟩ := List.append_of_mem hmem
  have hadmits := admitsAll_syncAccepts (run_draft {} rfl before) first _ rest hsplit
  exact hadmits.text text rfl

/-- The raw filters of a draft that is not poisoned are those that it has taken. -/
theorem raw_mem_clauses_iff {commands : List Command} {link : Link} {text : String}
    (hpoisoned : (run {} commands).engine.draft.poisoned = false) :
    .raw link text ∈ (run {} commands).engine.draft.clauses ↔
      ∃ b, Took commands (some b) (.raw link text) ∧ b.flagsText text = false := by
  rw [(run_draft {} rfl commands).eq_of_not_poisoned hpoisoned, Draft.raw_mem_collect_clauses_iff,
    ← took_iff]
  constructor
  · rintro ⟨backend, htook⟩
    obtain ⟨b, rfl, hflags⟩ := htook.text
    exact ⟨b, htook, hflags⟩
  · rintro ⟨b, htook, -⟩
    exact ⟨some b, htook⟩

end Bench

/-! ## What is screened when a statement is written -/

namespace Sql

variable {screen : Screen} {draft : Draft}

/-- A payload is written only if it is a text that the screen has passed. -/
theorem payload_of_extend {parts next : Parts} {payload : Json}
    (h : parts.extend screen draft (.misc payload) = .ok next) :
    ∃ text, payload = .string text ∧ screen.flagsText text = false := by
  cases payload with
  | string text =>
    simp only [Parts.extend] at h
    split at h
    · cases h
    · rename_i hflags
      exact ⟨text, rfl, by simpa using hflags⟩
  | _ => cases h

/-- Every clause of a statement that is written was written. -/
theorem exists_extend_of_foldlM {parts last : Parts} {clauses : List Clause}
    (h : clauses.foldlM (Parts.extend screen draft) parts = .ok last) :
    ∀ clause ∈ clauses, ∃ first next : Parts, first.extend screen draft clause = .ok next := by
  induction clauses generalizing parts with
  | nil => simp
  | cons clause clauses ih =>
    rw [List.foldlM_cons] at h
    obtain ⟨next, hnext, h⟩ := bind_eq_ok h
    exact List.forall_mem_cons.mpr ⟨⟨parts, next, hnext⟩, ih h⟩

/-- The screen of a statement has passed all payloads. -/
theorem payload_of_statement {text : List Char} (h : statement screen draft = .ok text)
    {payload : Json} (hmem : .misc payload ∈ draft.clauses) :
    ∃ text, payload = .string text ∧ screen.flagsText text = false := by
  rw [statement] at h
  cases houtput : draft.output with
  | none => simp [houtput] at h
  | some target =>
    rw [houtput] at h
    obtain ⟨parts, hparts, -⟩ := bind_eq_ok h
    obtain ⟨first, next, hextend⟩ := exists_extend_of_foldlM hparts _ hmem
    exact payload_of_extend hextend

/-- **The parts of a statement, and who has passed them.** Take any run, in which the backend may be
exchanged at any time, and let a statement be compiled in the end. It is made of the target, the
conditions and the payloads of the draft. The screen of the backend that compiles it has passed
the name of the target, the fields and the payloads. The text of a raw filter was passed by the
backend of the sync that took it. So the raw filters have passed the screen of the statement, too,
exactly if no sync since the last reset took one that this screen flags; and they have, if the
backends of these syncs flag whatever this screen flags. -/
theorem run_compile_consented {commands : List Bench.Command} {screen : Screen}
    {database : Database} {tally : Tally} {query : CompiledQuery} :
    let engine := (Bench.run {} commands).engine
    engine.backend = some (backend screen database) →
      (engine.compile tally).1 = .ok query →
      ∃ target, engine.draft.output = some target ∧
        query.text.toList =
          headText engine.draft target ++ (payloads engine.draft).flatMap (' ' :: ·) ∧
        screen.flagsField target.name = false ∧
        (∀ clause ∈ engine.draft.clauses, ∀ binding ∈ clause.bindings,
          screen.flagsField binding.field = false) ∧
        (∀ payload, .misc payload ∈ engine.draft.clauses →
          ∃ text, payload = .string text ∧ screen.flagsText text = false) ∧
        (∀ link text, .raw link text ∈ engine.draft.clauses →
          ∃ b, Bench.Took commands (some b) (.raw link text) ∧ b.flagsText text = false) ∧
        ((∀ link text, .raw link text ∈ engine.draft.clauses → screen.flagsText text = false) ↔
          ∀ b link text, Bench.Took commands (some b) (.raw link text) →
            screen.flagsText text = false) ∧
        ((∀ b fragment, Bench.Took commands (some b) fragment →
            ∀ text, screen.flagsText text = true → b.flagsText text = true) →
          ∀ link text, .raw link text ∈ engine.draft.clauses → screen.flagsText text = false) := by
  intro engine hbackend hcompile
  obtain ⟨hpoisoned, hstatement⟩ := engine_compile_eq_ok hbackend hcompile
  obtain ⟨target, houtput, hname, hwritable, htext⟩ := statement_eq_ok hstatement
  have hraw : ∀ link text, .raw link text ∈ engine.draft.clauses →
      ∃ b, Bench.Took commands (some b) (.raw link text) ∧ b.flagsText text = false :=
    fun _ _ hmem => (Bench.raw_mem_clauses_iff hpoisoned).mp hmem
  refine ⟨target, houtput, htext, hname, fun clause hclause binding hbinding =>
    (hwritable clause hclause binding hbinding).field, fun payload hmem =>
    payload_of_statement hstatement hmem, hraw, ⟨fun hall b link text htook => ?_,
    fun hall link text hmem => ?_⟩, fun hall link text hmem => ?_⟩
  · obtain ⟨_, hb, hflags⟩ := htook.text
    obtain rfl := Option.some.inj hb
    exact hall link text ((Bench.raw_mem_clauses_iff hpoisoned).mpr ⟨b, htook, hflags⟩)
  · obtain ⟨b, htook, -⟩ := hraw link text hmem
    exact hall b link text htook
  · -- What the backend of the sync has passed the screen of the statement does not flag.
    obtain ⟨b, htook, hflags⟩ := hraw link text hmem
    by_contra hflagged
    have hflagged := hall b _ htook text (by simpa using hflagged)
    exact Bool.false_ne_true (hflags.symm.trans hflagged)

/-- The parts of a statement for which one backend is in charge all the time. -/
theorem run_compile_consented_users :
    let commands : List Bench.Command :=
      [.setBackend (backend {} []), .attach 0, .push 0 (.raw .start "age > 3"),
        .push 0 (.find ⟨"users", 0⟩), .push 0 (.misc (.string "LIMIT 1")), .sync]
    let engine := (Bench.run {} commands).engine
    engine.backend = some (backend {} []) ∧
      (engine.compile {}).1 =
        .ok ⟨"SELECT * FROM \"users\" WHERE (age > 3) LIMIT 1", [], false⟩ ∧
      Screen.flagsField {} "users" = false ∧ Screen.flagsText {} "LIMIT 1" = false ∧
      ∃ b, Bench.Took commands (some b) (.raw .start "age > 3") ∧
        b.flagsText "age > 3" = false := by
  intro commands engine
  have hcompile : (engine.compile {}).1 =
      .ok ⟨"SELECT * FROM \"users\" WHERE (age > 3) LIMIT 1", [], false⟩ := rfl
  have hclauses : engine.draft.clauses =
      [.raw .start "age > 3", .setTarget, .misc (.string "LIMIT 1")] := rfl
  obtain ⟨target, houtput, -, hname, -, hmisc, hraw, -⟩ := run_compile_consented rfl hcompile
  obtain rfl := Option.some.inj houtput
  obtain ⟨text, htext, hpass⟩ := hmisc (.string "LIMIT 1") (by rw [hclauses]; simp)
  obtain rfl := Json.string.inj htext
  exact ⟨rfl, hcompile, hname, hpass, hraw .start "age > 3" (by rw [hclauses]; simp)⟩

/-- **A statement need not have the consent of its screen**: a raw filter is synced with one backend
and written by another that denies one of its words. -/
theorem run_compile_not_consented :
    let screen := Screen.withKeywords ["sleep"]
    let commands : List Bench.Command :=
      [.setBackend (backend {} []), .attach 0, .push 0 (.raw .start "sleep > 3"),
        .push 0 (.find ⟨"users", 0⟩), .sync, .setBackend (backend screen [])]
    let engine := (Bench.run {} commands).engine
    engine.backend = some (backend screen []) ∧
      (engine.compile {}).1 = .ok ⟨"SELECT * FROM \"users\" WHERE (sleep > 3)", [], false⟩ ∧
      .raw .start "sleep > 3" ∈ engine.draft.clauses ∧ screen.flagsText "sleep > 3" = true := by
  intro screen commands engine
  have hclauses : engine.draft.clauses = [.raw .start "sleep > 3", .setTarget] := rfl
  refine ⟨rfl, rfl, by rw [hclauses]; simp, by decide⟩

end Sql

end ScreenedQuery
