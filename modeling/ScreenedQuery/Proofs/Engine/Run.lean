import ScreenedQuery.Engine.Bench
import ScreenedQuery.Proofs.Draft.Drain
import ScreenedQuery.Proofs.Draft.History

/-!
# Runs of a bench

What the draft of an engine holds after any commands, by the fragments that it has accepted since
it was reset last. Whatever happens in between, a sync that fails halfway, a backend that is
exchanged or a query that is executed, the draft is that of these fragments.

## Main definitions

* `Bench.run`: commands carried out one after the other
* `Bench.accepted`: the fragments that the draft has accepted since the last reset

## Main results

* `Bench.run_draft`: the draft is that of the accepted fragments
* `Bench.run_bindings_numbered`: placeholders are numbered without a gap, and every one stands for
  the value that was given
-/

namespace ScreenedQuery.Bench

/-- A bench after commands. -/
def run (bench : Bench) (commands : List Command) : Bench :=
  commands.foldl (fun bench command => (bench.step command).2) bench

@[simp] theorem run_nil (bench : Bench) : bench.run [] = bench := rfl

@[simp] theorem run_append_singleton (bench : Bench) (commands : List Command)
    (command : Command) :
    bench.run (commands ++ [command]) = ((bench.run commands).step command).2 := by
  simp [run]

/-- A command of a run is its last one, or one of those before. -/
theorem eq_last_or_before {commands before after : List Command} {command last : Command}
    (h : before ++ command :: after = commands ++ [last]) :
    (before = commands ∧ command = last ∧ after = []) ∨
      ∃ rest, after = rest ++ [last] ∧ before ++ command :: rest = commands := by
  rcases List.eq_nil_or_concat after with rfl | ⟨rest, final, rfl⟩
  · obtain ⟨hbefore, hlast⟩ := List.append_inj' h rfl
    exact .inl ⟨hbefore, List.singleton_inj.mp hlast, rfl⟩
  · rw [List.concat_eq_append, ← List.cons_append, ← List.append_assoc] at h
    obtain ⟨hbefore, hlast⟩ := List.append_inj' h rfl
    obtain rfl := List.singleton_inj.mp hlast
    exact .inr ⟨rest, List.concat_eq_append, hbefore⟩

/-- The queue that a sync takes fragments from. -/
def attachedQueue (bench : Bench) : Queue Fragment :=
  match bench.attached with
  | none => .empty
  | some number => bench.queue number

/-- The fragments that a sync accepts: as many of those that wait as the tally goes up by. -/
def syncAccepts (bench : Bench) : List Fragment :=
  bench.attachedQueue.items.take
    (bench.sync.2.ledger.tally.accepted - bench.ledger.tally.accepted)

/-- The fragments that the draft has accepted since the last reset, behind a command. -/
def acceptedBehind (bench : Bench) (history : List Fragment) : Command → List Fragment
  | .sync => history ++ bench.syncAccepts
  | .reset => []
  | _ => history

/-- A command carried out, the accepted fragments kept along. -/
def stepAccepting (state : Bench × List Fragment) (command : Command) : Bench × List Fragment :=
  ((state.1.step command).2, state.1.acceptedBehind state.2 command)

/-- **The fragments that the draft has accepted since the last reset**, in a run of commands from
a bench that has accepted none. -/
def accepted (bench : Bench) (commands : List Command) : List Fragment :=
  (commands.foldl stepAccepting (bench, [])).2

theorem foldl_stepAccepting (bench : Bench) (commands : List Command) :
    commands.foldl stepAccepting (bench, []) = (bench.run commands, bench.accepted commands) := by
  have hrun : (commands.foldl stepAccepting (bench, [])).1 = bench.run commands := by
    induction commands using List.reverseRecOn with
    | nil => rfl
    | append_singleton commands command ih =>
      rw [List.foldl_append, run_append_singleton, ← ih]
      rfl
  exact Prod.ext hrun rfl

@[simp] theorem accepted_nil (bench : Bench) : bench.accepted [] = [] := rfl

@[simp] theorem accepted_append_singleton (bench : Bench) (commands : List Command)
    (command : Command) :
    bench.accepted (commands ++ [command]) =
      (bench.run commands).acceptedBehind (bench.accepted commands) command := by
  rw [accepted, List.foldl_append, foldl_stepAccepting]
  rfl

/-! ## The draft of a run -/

/-- A draft holds what fragments add to it, and may have refused a further one. -/
def Holds (history : List Fragment) (draft : Draft) : Prop :=
  draft = .collect history ∨ ∃ fragment, draft = (Draft.collect history).refuse fragment

theorem Holds.clauses {history : List Fragment} {draft : Draft} (h : Holds history draft) :
    draft.clauses = (Draft.collect history).clauses := by
  rcases h with rfl | ⟨fragment, rfl⟩ <;> rfl

theorem Holds.params {history : List Fragment} {draft : Draft} (h : Holds history draft) :
    draft.params = (Draft.collect history).params := by
  rcases h with rfl | ⟨fragment, rfl⟩ <;> rfl

/-- A draft that is not poisoned has refused nothing. -/
theorem Holds.eq_of_not_poisoned {history : List Fragment} {draft : Draft}
    (h : Holds history draft) (hpoisoned : draft.poisoned = false) : draft = .collect history := by
  rcases h with h | ⟨fragment, rfl⟩
  · exact h
  · exact absurd hpoisoned (by simp [Draft.refuse])

/-- What a drain leaves behind holds the fragments that it took. -/
theorem holds_drain (backend : Option Backend) (history fragments : List Fragment) :
    let drained := Draft.drain backend (.collect history) fragments
    Holds (history ++ fragments.take drained.accepted) drained.draft := by
  rcases Draft.admitsAll_or_refuses backend history fragments with
    hall | ⟨middle, fragment, after, error, rfl, hall, hrefuses⟩
  · rw [Draft.drain_of_admitsAll hall]
    exact .inl (by simp)
  · -- What was taken are the fragments before the refused one.
    rw [Draft.drain_of_refuses hall hrefuses]
    exact .inr ⟨fragment, by simp⟩

/-- What stands behind the refused fragment was there before. -/
theorem drain_rest_subset (backend : Option Backend) (draft : Draft) (fragments : List Fragment) :
    (draft.drain backend fragments).rest ⊆ fragments := by
  induction fragments generalizing draft with
  | nil => simp [Draft.drain]
  | cons fragment rest ih =>
    rw [Draft.drain]
    cases draft.accept backend fragment with
    | error error => exact List.subset_cons_self fragment rest
    | ok draft => exact List.Subset.trans (ih draft) (List.subset_cons_self fragment rest)

/-- A sync extends what the draft holds by the fragments that it accepts. -/
theorem holds_sync {bench : Bench} {history : List Fragment}
    (h : Holds history bench.engine.draft) :
    Holds (history ++ bench.syncAccepts) bench.sync.2.engine.draft := by
  cases hattached : bench.attached with
  | none => simpa [syncAccepts, attachedQueue, sync, hattached] using h
  | some number =>
    by_cases hpoisoned : bench.engine.draft.poisoned = true
    · -- A poisoned draft takes nothing, and the tally stands still.
      simpa [syncAccepts, attachedQueue, sync, hattached, Engine.sync, hpoisoned] using h
    · -- The draft has refused nothing, so that the queue is drained behind its fragments.
      have hdraft := h.eq_of_not_poisoned (by simpa using hpoisoned)
      simpa [syncAccepts, attachedQueue, sync, hattached, Engine.sync, hpoisoned, ← hdraft] using
        hdraft ▸ holds_drain bench.engine.backend history (bench.queue number).items

/-- A command keeps that the draft holds the accepted fragments. -/
theorem holds_step {bench : Bench} {history : List Fragment}
    (h : Holds history bench.engine.draft) (command : Command) :
    Holds (bench.acceptedBehind history command) (bench.step command).2.engine.draft := by
  cases command with
  | sync => exact holds_sync h
  | reset => exact .inl rfl
  | tally restart => cases restart <;> exact h
  | _ => exact h

/-- **The draft of a run holds the fragments that it has accepted since the last reset.** -/
theorem run_draft (bench : Bench) (h : bench.engine.draft = .empty) (commands : List Command) :
    Holds (bench.accepted commands) (bench.run commands).engine.draft := by
  induction commands using List.reverseRecOn with
  | nil => exact .inl h
  | append_singleton commands command ih =>
    -- The last command is carried out on a draft that holds what was accepted before.
    rw [accepted_append_singleton, run_append_singleton]
    exact holds_step ih command

/-! ## Where accepted fragments come from -/

/-- The fragments that wait in some queue. -/
def waiting (bench : Bench) : List Fragment := bench.queues.flatMap Queue.items

theorem queue_items_subset_waiting (bench : Bench) (number : Nat) :
    (bench.queue number).items ⊆ bench.waiting := by
  intro fragment h
  unfold queue at h
  cases hqueue : bench.queues[number]? with
  | none => simp [hqueue, Queue.empty] at h
  | some queue =>
    rw [hqueue] at h
    exact List.mem_flatMap.mpr ⟨queue, List.mem_of_getElem? hqueue, h⟩

/-- Replacing a queue leaves nothing new but what is in the new one. -/
theorem mem_waiting_setQueue {bench : Bench} {number : Nat} {queue : Queue Fragment}
    {fragment : Fragment} (h : fragment ∈ (bench.setQueue number queue).waiting) :
    fragment ∈ bench.waiting ∨ fragment ∈ queue.items := by
  obtain ⟨other, hmem, hfragment⟩ := List.mem_flatMap.mp h
  rcases List.mem_or_eq_of_mem_set hmem with hmem | rfl
  · exact .inl (List.mem_flatMap.mpr ⟨other, hmem, hfragment⟩)
  · exact .inr hfragment

theorem syncAccepts_subset_waiting (bench : Bench) : bench.syncAccepts ⊆ bench.waiting := by
  refine List.Subset.trans (List.take_subset _ _) ?_
  unfold attachedQueue
  split
  · exact List.nil_subset _
  · exact queue_items_subset_waiting bench _

theorem waiting_sync_subset (bench : Bench) : bench.sync.2.waiting ⊆ bench.waiting := by
  intro fragment h
  unfold sync at h
  split at h
  · exact h
  · rename_i number _
    rcases mem_waiting_setQueue h with h | h
    · exact h
    · refine queue_items_subset_waiting bench number ?_
      unfold Engine.sync at h
      split at h
      · exact h
      · exact drain_rest_subset _ _ _ h

/-- A command makes no fragments but the one it pushes. -/
theorem mem_waiting_step {bench : Bench} {command : Command} {fragment : Fragment}
    (h : fragment ∈ (bench.step command).2.waiting) :
    fragment ∈ bench.waiting ∨ ∃ number, command = .push number fragment := by
  cases command with
  | push number pushed =>
    rcases mem_waiting_setQueue h with h | h
    · exact .inl h
    · rcases List.mem_append.mp h with h | h
      · exact .inl (queue_items_subset_waiting bench _ h)
      · exact .inr ⟨number, by rw [List.mem_singleton.mp h]⟩
  | newQueue => exact .inl (by simpa [step, waiting, Queue.empty] using h)
  | clearQueue number =>
    rcases mem_waiting_setQueue h with h | h
    · exact .inl h
    · simp [Queue.clear, Queue.empty] at h
  | sync => exact .inl (waiting_sync_subset bench h)
  | tally restart => cases restart <;> exact .inl h
  | _ => exact .inl h

/-- **Every fragment that waits or was accepted has been pushed.** -/
theorem pushed_of_mem (bench : Bench) (h : bench.waiting = []) (commands : List Command) :
    ∀ fragment, fragment ∈ (bench.run commands).waiting ∨ fragment ∈ bench.accepted commands →
      ∃ number, .push number fragment ∈ commands := by
  induction commands using List.reverseRecOn with
  | nil => simp [h]
  | append_singleton commands command ih =>
    intro fragment hmem
    rw [run_append_singleton, accepted_append_singleton] at hmem
    have hbefore (h : fragment ∈ (bench.run commands).waiting ∨ fragment ∈ bench.accepted commands) :
        ∃ number, .push number fragment ∈ commands ++ [command] :=
      (ih fragment h).imp fun _ hpush => List.mem_append_left _ hpush
    rcases hmem with hmem | hmem
    · -- It waits: it did before, or it is the one that the last command pushes.
      rcases mem_waiting_step hmem with hmem | ⟨number, rfl⟩
      · exact hbefore (.inl hmem)
      · exact ⟨number, List.mem_append_right _ (.head _)⟩
    · -- It was accepted: before, or out of a queue in which it waited.
      refine hbefore ?_
      cases command with
      | sync =>
        rcases List.mem_append.mp hmem with hmem | hmem
        · exact .inr hmem
        · exact .inl (syncAccepts_subset_waiting _ hmem)
      | reset => exact absurd hmem List.not_mem_nil
      | _ => exact .inr hmem

/-! ## The values of a run -/

/-- **Placeholders are numbered without a gap, and every one stands for the value that was
given.** After any commands the bindings of the clauses have the numbers of the values in order.
Every clause comes from a fragment that was pushed and accepted since the last reset, and the value
of each of its bindings is the one that this fragment was given for the field. There are no values
but those of the filters of accepted fragments that count. -/
theorem run_bindings_numbered (commands : List Command) :
    let draft := (run {} commands).engine.draft
    let history := accepted {} commands
    draft.bindings.map (·.placeholder.index) = List.range draft.params.length ∧
      List.Forall₂ (fun source clause => clause.kind = source.2 ∧
          clause.Carries draft.params source.1)
        (Draft.expansion history) draft.clauses ∧
      draft.params = (Draft.boundFields history).map (·.2) ∧
      ∀ fragment ∈ history, ∃ number, .push number fragment ∈ commands := by
  intro draft history
  have hdraft : Holds history draft := run_draft {} rfl commands
  have hpushed := pushed_of_mem {} rfl commands
  have hbindings : draft.bindings = (Draft.collect history).bindings := by
    rw [Draft.bindings, hdraft.clauses, ← Draft.bindings]
  rw [hbindings, hdraft.params, hdraft.clauses, Draft.collect_bindings,
    Draft.map_index_bindingsFrom]
  refine ⟨?_, Draft.collect_carries history, Draft.collect_params history,
    fun fragment hmem => hpushed fragment (.inr hmem)⟩
  rw [Draft.collect_params, List.length_map, List.length_map, List.range_eq_range']

/-- The bindings of a run have values. -/
theorem run_index_lt (commands : List Command) :
    ∀ clause ∈ (run {} commands).engine.draft.clauses, ∀ binding ∈ clause.bindings,
      binding.placeholder.index < (run {} commands).engine.draft.params.length := by
  intro clause hclause binding hbinding
  have hdraft := run_draft {} rfl commands
  rw [hdraft.params, ← List.mem_range, ← Draft.collect_numbered]
  rw [hdraft.clauses] at hclause
  exact List.mem_map_of_mem (List.mem_flatMap.mpr ⟨clause, hclause, hbinding⟩)

end ScreenedQuery.Bench
