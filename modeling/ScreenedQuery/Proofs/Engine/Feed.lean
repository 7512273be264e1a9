import ScreenedQuery.Proofs.Engine.Sync

/-!
# Syncs while fragments are pushed

A queue is shared, and fragments may be pushed into it while a sync is under way: a sync looks into
the queue for one fragment at a time, and holds the queue only while it looks. Here a sync is taken
apart into these looks, between which anything may be pushed. How the fragments of a query fall into
syncs makes no difference to the draft.

## Main definitions

* `Feed`: an engine with its queue, the sync under way and those that have returned
* `Feed.step`, `Feed.run`: a push, the call of a sync or one look of it, and many of them
* `Feed.Accepts`, `Feed.Refused`: a feed that has refused nothing, and one that has

## Main results

* `Feed.run_alone`: a sync during which nothing is pushed is `Engine.sync`
* `Feed.follows_step`, `Feed.follows_run`: what a feed does follows from what was pushed
* `Feed.run_batches`: all ways to batch a query come to the same
-/

namespace ScreenedQuery

/-- A sync that has returned. -/
structure Feed.Turn where
  /-- The fragments that it took out of the queue. -/
  taken : List Fragment
  outcome : Except QueryError Unit

/-- **An engine that is fed while it syncs.** -/
structure Feed where
  engine : Engine
  queue : Queue Fragment := .empty
  /-- The fragments that the sync under way has taken, if one is under way. -/
  running : Option (List Fragment) := none
  /-- The syncs that have returned, the first one first. -/
  turns : List Feed.Turn := []

namespace Feed

/-- What happens to a feed. -/
inductive Event
  | push (fragment : Fragment)
  /-- A sync is called. -/
  | call
  /-- The sync under way looks into the queue once. -/
  | take

/-- The sync under way returns. -/
def returns (feed : Feed) (taken : List Fragment) (outcome : Except QueryError Unit) : Feed :=
  { feed with running := none, turns := feed.turns ++ [⟨taken, outcome⟩] }

/-- **One thing that happens.** A second sync cannot be called while one is under way. -/
def step (feed : Feed) : Event → Feed
  | .push fragment => { feed with queue := feed.queue.push fragment }
  | .call =>
    match feed.running with
    | some _ => feed
    | none =>
      if feed.engine.draft.poisoned then feed.returns [] (.error .draftPoisoned)
      else { feed with running := some [] }
  | .take =>
    match feed.running with
    | none => feed
    | some taken =>
      if feed.queue.isEmpty then feed.returns taken (.ok ())
      else
        let draft := feed.engine.draft
        match feed.queue.get with
        | .error error =>
          { feed with
            engine := { feed.engine with draft := { draft with poisoned := true } } }.returns
              taken (.error error)
        | .ok (fragment, queue) =>
          match draft.accept feed.engine.backend fragment with
          | .error error =>
            { feed with
              engine := { feed.engine with draft := draft.refuse fragment }
              queue }.returns (taken ++ [fragment]) (.error error)
          | .ok draft =>
            { feed with
              engine := { feed.engine with draft }
              queue
              running := some (taken ++ [fragment]) }

/-- A feed after what happened. -/
def run (feed : Feed) (events : List Event) : Feed := events.foldl step feed

/-- The fragments that were pushed, in order. -/
def pushed : List Event → List Fragment
  | [] => []
  | .push fragment :: events => fragment :: pushed events
  | .call :: events | .take :: events => pushed events

/-- All fragments that were taken out of the queue, in order. -/
def taken (feed : Feed) : List Fragment :=
  feed.turns.flatMap Turn.taken ++ feed.running.getD []

/-- A sync during which nothing is pushed, so that its last look finds an empty queue. -/
def alone (waiting : Nat) : List Event := .call :: List.replicate (waiting + 1) .take

/-! ## Steps and runs -/

variable {feed : Feed} {fragment : Fragment}

@[simp] theorem run_nil (feed : Feed) : feed.run [] = feed := rfl

@[simp] theorem run_cons (feed : Feed) (event : Event) (events : List Event) :
    feed.run (event :: events) = (feed.step event).run events := rfl

@[simp] theorem pushed_append (first second : List Event) :
    pushed (first ++ second) = pushed first ++ pushed second := by
  induction first with
  | nil => rfl
  | cons event first ih => cases event <;> simp [pushed, ih]

@[simp] theorem taken_returns (feed : Feed) (taken : List Fragment)
    (outcome : Except QueryError Unit) :
    (feed.returns taken outcome).taken = feed.turns.flatMap Turn.taken ++ taken := by
  simp [returns, Feed.taken]

theorem taken_of_running {taken : List Fragment} (h : feed.running = some taken) :
    feed.taken = feed.turns.flatMap Turn.taken ++ taken := by
  simp [Feed.taken, h]

theorem step_call_of_poisoned (hidle : feed.running = none)
    (hpoisoned : feed.engine.draft.poisoned = true) :
    feed.step .call = feed.returns [] (.error .draftPoisoned) := by
  simp [step, hidle, hpoisoned]

theorem step_call_of_not_poisoned (hidle : feed.running = none)
    (hpoisoned : feed.engine.draft.poisoned = false) :
    feed.step .call = { feed with running := some [] } := by
  simp [step, hidle, hpoisoned]

/-- While no sync is under way nothing looks into the queue. -/
theorem run_take_of_idle (hidle : feed.running = none) (looks : Nat) :
    feed.run (List.replicate looks .take) = feed := by
  induction looks with
  | zero => rfl
  | succ looks ih =>
    have hstep : feed.step .take = feed := by simp [step, hidle]
    rw [List.replicate_succ, run_cons, hstep, ih]

/-- A sync that finds the queue empty returns. -/
theorem step_take_of_empty {taken : List Fragment} (hrunning : feed.running = some taken)
    (hqueue : feed.queue.items = []) : feed.step .take = feed.returns taken (.ok ()) := by
  simp [step, hrunning, Queue.isEmpty, hqueue]

/-- A sync takes the next fragment, and the draft has the last word on it. -/
theorem step_take_of_cons {taken rest : List Fragment} (hrunning : feed.running = some taken)
    (hqueue : feed.queue.items = fragment :: rest) :
    feed.step .take =
      match feed.engine.draft.accept feed.engine.backend fragment with
      | .error error =>
        { feed with
          engine := { feed.engine with draft := feed.engine.draft.refuse fragment }
          queue := ⟨rest⟩ }.returns (taken ++ [fragment]) (.error error)
      | .ok draft =>
        { feed with
          engine := { feed.engine with draft }
          queue := ⟨rest⟩
          running := some (taken ++ [fragment]) } := by
  simp only [step, hrunning, Queue.isEmpty, Queue.get, hqueue]
  rfl

/-! ## A sync without pushes -/

/-- What the looks of a sync come to when nothing is pushed meanwhile. -/
theorem run_take {waiting : List Fragment} (hqueue : feed.queue.items = waiting)
    {taken : List Fragment} (hrunning : feed.running = some taken) {looks : Nat}
    (hlooks : waiting.length < looks) :
    let drained := feed.engine.draft.drain feed.engine.backend waiting
    ∃ more, feed.run (List.replicate looks .take) =
      { engine := { feed.engine with draft := drained.draft }
        queue := ⟨drained.rest⟩
        turns := feed.turns ++ [⟨taken ++ more, match drained.error with
          | some error => .error error
          | none => .ok ()⟩] } := by
  intro drained
  -- Each look takes one fragment, until none waits or one is refused.
  induction waiting generalizing feed taken looks with
  | nil =>
    obtain ⟨looks, rfl⟩ : ∃ n, looks = n + 1 := ⟨looks - 1, by grind⟩
    refine ⟨[], ?_⟩
    rw [List.replicate_succ, run_cons, step_take_of_empty hrunning hqueue,
      run_take_of_idle rfl]
    obtain ⟨engine, ⟨items⟩, running, turns⟩ := feed
    obtain rfl : items = [] := hqueue
    simp [drained, returns, Draft.drain]
  | cons fragment rest ih =>
    obtain ⟨looks, rfl⟩ : ∃ n, looks = n + 1 := ⟨looks - 1, by grind⟩
    have hrest : rest.length < looks := by simpa using hlooks
    rw [List.replicate_succ, run_cons, step_take_of_cons hrunning hqueue]
    simp only [drained, Draft.drain]
    cases feed.engine.draft.accept feed.engine.backend fragment with
    | error error =>
      refine ⟨[fragment], ?_⟩
      dsimp only
      rw [run_take_of_idle rfl]
      rfl
    | ok draft =>
      dsimp only
      obtain ⟨more, hrun⟩ := @ih { feed with
          engine := { feed.engine with draft }
          queue := ⟨rest⟩
          running := some (taken ++ [fragment]) } rfl (taken ++ [fragment]) rfl looks hrest
      exact ⟨fragment :: more, by simpa using hrun⟩

/-- **A sync during which nothing is pushed** is `Engine.sync`. -/
theorem run_alone (hidle : feed.running = none) :
    let synced := feed.engine.sync feed.queue {}
    ∃ taken, feed.run (alone feed.queue.size) =
      { engine := synced.engine, queue := synced.queue,
        turns := feed.turns ++ [⟨taken, synced.outcome⟩] } := by
  intro synced
  cases hpoisoned : feed.engine.draft.poisoned with
  | true =>
    refine ⟨[], ?_⟩
    simp only [alone, run_cons, step_call_of_poisoned hidle hpoisoned, synced,
      Engine.sync_of_poisoned hpoisoned]
    rw [run_take_of_idle rfl]
    rfl
  | false =>
    obtain ⟨taken, hrun⟩ := @run_take { feed with running := some [] } feed.queue.items rfl [] rfl
      (feed.queue.size + 1) (Nat.lt_succ_self _)
    refine ⟨taken, ?_⟩
    simp only [alone, run_cons, step_call_of_not_poisoned hidle hpoisoned, synced, Engine.sync,
      hpoisoned, Bool.false_eq_true, if_false]
    exact hrun

/-! ## What a feed does follows from what was pushed -/

/-- **A feed that has refused nothing**: what it has taken is in the draft, the rest waits. -/
structure Accepts (engine : Engine) (pushed : List Fragment) (feed : Feed) : Prop where
  pushed_eq : pushed = feed.taken ++ feed.queue.items
  admits : Draft.AdmitsAll engine.backend [] feed.taken
  engine_eq : feed.engine = { engine with draft := .collect feed.taken }
  succeeded : ∀ turn ∈ feed.turns, turn.outcome = .ok ()

/-- **A feed that has refused a fragment**: one sync took it and failed, those before succeeded and
those behind it took nothing. -/
structure Refused (engine : Engine) (pushed : List Fragment) (feed : Feed)
    (before : List Fragment) (fragment : Fragment) (error : QueryError) : Prop where
  pushed_eq : pushed = before ++ fragment :: feed.queue.items
  admits : Draft.AdmitsAll engine.backend [] before
  refuses : Draft.Refuses engine.backend before fragment error
  engine_eq : feed.engine = { engine with draft := (Draft.collect before).refuse fragment }
  idle : feed.running = none
  turns : ∃ earlier taken later,
    feed.turns = earlier ++ ⟨taken ++ [fragment], .error error⟩ :: later ∧
      (∀ turn ∈ earlier, turn.outcome = .ok ()) ∧
      earlier.flatMap Turn.taken ++ taken = before ∧
      ∀ turn ∈ later, turn = ⟨[], .error .draftPoisoned⟩

/-- What a feed does with the fragments that were pushed. -/
def Follows (engine : Engine) (pushed : List Fragment) (feed : Feed) : Prop :=
  feed.Accepts engine pushed ∨
    ∃ before fragment error, feed.Refused engine pushed before fragment error

variable {engine : Engine} {history : List Fragment}

theorem Refused.taken_eq {before : List Fragment} {error : QueryError}
    (h : feed.Refused engine history before fragment error) :
    feed.taken = before ++ [fragment] := by
  obtain ⟨earlier, taken, later, hturns, -, rfl, hlater⟩ := h.turns
  have hnone : later.flatMap Turn.taken = [] :=
    List.flatMap_eq_nil_iff.mpr fun turn hturn => by rw [hlater turn hturn]
  simp [Feed.taken, hturns, h.idle, hnone]

theorem Accepts.push (h : feed.Accepts engine history) (fragment : Fragment) :
    (feed.step (.push fragment)).Accepts engine (history ++ [fragment]) :=
  ⟨by simp [h.pushed_eq, step, Feed.taken], h.admits, h.engine_eq, h.succeeded⟩

theorem Refused.push {before : List Fragment} {refused : Fragment} {error : QueryError}
    (h : feed.Refused engine history before refused error) (fragment : Fragment) :
    (feed.step (.push fragment)).Refused engine (history ++ [fragment]) before refused error :=
  ⟨by simp [h.pushed_eq, step], h.admits, h.refuses, h.engine_eq, h.idle, h.turns⟩

theorem Accepts.call (h : feed.Accepts engine history) :
    (feed.step .call).Accepts engine history := by
  cases hrunning : feed.running with
  | some taken =>
    have hstep : feed.step .call = feed := by simp [step, hrunning]
    rwa [hstep]
  | none =>
    have hpoisoned : feed.engine.draft.poisoned = false := by simp [h.engine_eq]
    have htaken : ({ feed with running := some [] } : Feed).taken = feed.taken := by
      simp [Feed.taken, hrunning]
    rw [step_call_of_not_poisoned hrunning hpoisoned]
    exact ⟨by rw [htaken]; exact h.pushed_eq, by rw [htaken]; exact h.admits,
      by rw [htaken]; exact h.engine_eq, h.succeeded⟩

/-- A sync that is called behind the refusal is one more that takes nothing. -/
theorem Refused.call {before : List Fragment} {error : QueryError}
    (h : feed.Refused engine history before fragment error) :
    (feed.step .call).Refused engine history before fragment error := by
  have hpoisoned : feed.engine.draft.poisoned = true := by simp [h.engine_eq, Draft.refuse]
  rw [step_call_of_poisoned h.idle hpoisoned]
  obtain ⟨earlier, taken, later, hturns, hearlier, hbefore, hlater⟩ := h.turns
  refine ⟨h.pushed_eq, h.admits, h.refuses, h.engine_eq, rfl,
    earlier, taken, later ++ [⟨[], .error .draftPoisoned⟩], by simp [returns, hturns], hearlier,
    hbefore, ?_⟩
  simpa [or_imp, forall_and] using hlater

/-- A feed that has taken one more fragment, and has it in the draft. -/
theorem Accepts.behind {before rest : List Fragment}
    (hpushed : history = before ++ fragment :: rest)
    (hadmits : Draft.AdmitsAll engine.backend [] (before ++ [fragment]))
    (htaken : feed.taken = before ++ [fragment]) (hqueue : feed.queue = ⟨rest⟩)
    (hengine : feed.engine = { engine with draft := .collect (before ++ [fragment]) })
    (hturns : ∀ turn ∈ feed.turns, turn.outcome = .ok ()) : feed.Accepts engine history :=
  ⟨by simp [hpushed, htaken, hqueue], htaken ▸ hadmits, htaken ▸ hengine, hturns⟩

/-- A look into the queue finds nothing, a fragment that the draft accepts, or one that it
refuses. -/
theorem Accepts.take (h : feed.Accepts engine history) :
    Follows engine history (feed.step .take) := by
  cases hrunning : feed.running with
  | none =>
    have hstep : feed.step .take = feed := by simp [step, hrunning]
    rw [hstep]
    exact .inl h
  | some taken =>
    have htaken := taken_of_running hrunning
    cases hqueue : feed.queue.items with
    | nil =>
      rw [step_take_of_empty hrunning hqueue]
      refine .inl ⟨?_, ?_, ?_, ?_⟩
      · rw [taken_returns, ← htaken]
        exact h.pushed_eq
      · rw [taken_returns, ← htaken]
        exact h.admits
      · rw [taken_returns, ← htaken]
        exact h.engine_eq
      · simpa [returns, or_imp, forall_and] using h.succeeded
    | cons fragment rest =>
      have hdraft : feed.engine.draft = .collect feed.taken := by rw [h.engine_eq]
      have hbackend : feed.engine.backend = engine.backend := by rw [h.engine_eq]
      have hpushed : history = feed.taken ++ fragment :: rest := by rw [h.pushed_eq, hqueue]
      rw [step_take_of_cons hrunning hqueue, hdraft, hbackend]
      rcases Draft.admits_or_refuses engine.backend feed.taken fragment with
        hadmits | ⟨error, hrefuses⟩
      · rw [Draft.accept_collect_eq_ok_iff.mpr ⟨hadmits, rfl⟩]
        dsimp only
        rw [h.engine_eq]
        refine .inl (.behind hpushed ?_ (by simp [Feed.taken, hrunning]) rfl rfl h.succeeded)
        rw [Draft.admitsAll_append_iff, Draft.admitsAll_cons_iff]
        exact ⟨h.admits, by simpa using hadmits, Draft.admitsAll_nil⟩
      · rw [Draft.accept_collect_eq_error_iff.mpr hrefuses]
        refine .inr ⟨feed.taken, fragment, error, hpushed, h.admits, hrefuses, ?_, rfl,
          feed.turns, taken, [], rfl, h.succeeded, htaken.symm, by simp⟩
        dsimp only [returns]
        rw [h.engine_eq]

theorem Refused.take {before : List Fragment} {error : QueryError}
    (h : feed.Refused engine history before fragment error) :
    (feed.step .take).Refused engine history before fragment error := by
  have hstep : feed.step .take = feed := by simp [step, h.idle]
  rwa [hstep]

/-- **Whatever happens**, a feed still does what follows from the fragments that were pushed. -/
theorem follows_step (h : Follows engine history feed) (event : Event) :
    Follows engine (history ++ pushed [event]) (feed.step event) := by
  cases event with
  | push fragment =>
    rcases h with h | ⟨before, refused, error, h⟩
    · exact .inl (h.push fragment)
    · exact .inr ⟨before, refused, error, h.push fragment⟩
  | call =>
    rw [pushed, pushed, List.append_nil]
    rcases h with h | ⟨before, refused, error, h⟩
    · exact .inl h.call
    · exact .inr ⟨before, refused, error, h.call⟩
  | take =>
    rw [pushed, pushed, List.append_nil]
    rcases h with h | ⟨before, refused, error, h⟩
    · exact h.take
    · exact .inr ⟨before, refused, error, h.take⟩

theorem follows_run (h : Follows engine history feed) (events : List Event) :
    Follows engine (history ++ pushed events) (feed.run events) := by
  induction events generalizing history feed with
  | nil => simpa [pushed] using h
  | cons event events ih =>
    have hsplit : pushed (event :: events) = pushed [event] ++ pushed events :=
      pushed_append [event] events
    rw [hsplit, ← List.append_assoc]
    exact ih (follows_step h event)

/-! ## Batches -/

/-- A sync of what waits leaves behind what one sync of all that was pushed does. -/
theorem Accepts.sync_eq (h : feed.Accepts engine history) :
    ∃ tally, feed.engine.sync feed.queue {} =
      { { engine with draft := .empty }.sync ⟨history⟩ {} with tally } := by
  have hdraft : feed.engine.draft = .collect feed.taken := by rw [h.engine_eq]
  have hbackend : feed.engine.backend = engine.backend := by rw [h.engine_eq]
  obtain ⟨tally, hsync⟩ := Engine.sync_behind hdraft (hbackend ▸ h.admits) feed.queue.items {}
  rw [← h.pushed_eq] at hsync
  refine ⟨tally, hsync.trans ?_⟩
  rw [h.engine_eq]

/-- What a feed has left behind when it refused a fragment is what one sync of all that was pushed
leaves. -/
theorem Refused.sync_eq {before : List Fragment} {error : QueryError}
    (h : feed.Refused engine history before fragment error) :
    ∃ tally, { engine with draft := .empty }.sync ⟨history⟩ {} =
      ⟨.error error, feed.engine, feed.queue, tally⟩ := by
  rw [h.pushed_eq, h.engine_eq]
  exact ⟨_, @Engine.sync_eq_of_refuses { engine with draft := .empty } [] rfl before fragment error
    h.admits h.refuses feed.queue.items {}⟩

/-- No fragment is lost, doubled or moved. -/
theorem Follows.taken_append (h : Follows engine history feed) :
    feed.taken ++ feed.queue.items = history := by
  rcases h with h | ⟨before, fragment, error, h⟩
  · exact h.pushed_eq.symm
  · rw [h.taken_eq, h.pushed_eq, List.append_assoc, List.singleton_append]

/-- A sync looks into the queue before it takes a fragment out. -/
theorem Follows.outcome_ne_emptyQueue (h : Follows engine history feed) :
    ∀ turn ∈ feed.turns, turn.outcome ≠ .error .emptyQueue := by
  intro turn hturn
  rcases h with h | ⟨before, fragment, error, h⟩
  · rw [h.succeeded turn hturn]
    exact nofun
  · obtain ⟨earlier, taken, later, hturns, hearlier, -, hlater⟩ := h.turns
    rw [hturns, List.mem_append, List.mem_cons] at hturn
    rcases hturn with hturn | rfl | hturn
    · rw [hearlier turn hturn]
      exact nofun
    · -- No rule is broken by an empty queue.
      rintro ⟨⟩
      nomatch h.refuses
    · rw [hlater turn hturn]
      exact nofun

/-- **A sync of what waits** leaves behind what one sync of all that was pushed does. -/
theorem Follows.sync_eq (h : Follows engine history feed) :
    let whole := { engine with draft := .empty }.sync ⟨history⟩ {}
    (feed.engine.sync feed.queue {}).engine = whole.engine ∧
      (feed.engine.sync feed.queue {}).queue = whole.queue := by
  intro whole
  rcases h with h | ⟨before, fragment, error, h⟩
  · obtain ⟨tally, hsync⟩ := h.sync_eq
    rw [hsync]
    exact ⟨rfl, rfl⟩
  · -- The draft is poisoned, so that a further sync changes nothing.
    have hpoisoned : feed.engine.draft.poisoned = true := by simp [h.engine_eq, Draft.refuse]
    obtain ⟨tally, hwhole⟩ := h.sync_eq
    rw [Engine.sync_of_poisoned hpoisoned]
    simp only [whole, hwhole, and_self]

/-- A feed into which only fragments were pushed that the rules admit has refused none. -/
theorem Follows.accepts_of_admitsAll (h : Follows engine history feed)
    (hall : Draft.AdmitsAll engine.backend [] history) : feed.Accepts engine history := by
  rcases h with h | ⟨before, fragment, error, h⟩
  · exact h
  · rw [h.pushed_eq] at hall
    have hadmits : Draft.Admits engine.backend before fragment := hall before fragment _ rfl
    exact absurd (Draft.accept_collect_eq_ok_iff.mpr ⟨hadmits, rfl⟩)
      (by simp [Draft.accept_collect_eq_error_iff.mpr h.refuses])

/-- The fragment that is refused is the first one that the rules do not admit, and as long as it was
not taken none is refused. -/
theorem Follows.accepts_or_refused (h : Follows engine history feed) {before after : List Fragment}
    {error : QueryError} (hpushed : history = before ++ fragment :: after)
    (hadmits : Draft.AdmitsAll engine.backend [] before)
    (hrefuses : Draft.Refuses engine.backend before fragment error) :
    (feed.taken.length ≤ before.length ∧ feed.Accepts engine history) ∨
      (before.length < feed.taken.length ∧ feed.queue = ⟨after⟩ ∧
        feed.Refused engine history before fragment error) := by
  rcases h with h | ⟨other, refused, cause, h⟩
  · exact .inl ⟨hrefuses.length_le h.admits (h.pushed_eq.symm.trans hpushed), h⟩
  · obtain ⟨rfl, rfl, hafter, rfl⟩ := hrefuses.first_unique hadmits h.refuses h.admits
      (hpushed.symm.trans h.pushed_eq)
    exact .inr ⟨by simp [h.taken_eq], by rw [hafter], h⟩

/-- **How a query is batched does not matter.** Fragments are pushed in any order of events with the
calls of syncs and their looks into the queue. -/
theorem run_batches (engine : Engine) (events : List Event) :
    let start : Feed := { engine := { engine with draft := .empty } }
    let feed := start.run events
    let whole := start.engine.sync ⟨pushed events⟩ {}
    feed.taken ++ feed.queue.items = pushed events ∧
    (∀ turn ∈ feed.turns, turn.outcome ≠ .error .emptyQueue) ∧
    (feed.running = none →
      let last := feed.run (alone feed.queue.size)
      last.engine = whole.engine ∧ last.queue = whole.queue ∧ last.running = none ∧
        ∃ taken, last.turns = feed.turns ++ [⟨taken, (feed.engine.sync feed.queue {}).outcome⟩]) ∧
    (Draft.AdmitsAll engine.backend [] (pushed events) →
      whole.outcome = .ok () ∧ whole.queue = .empty ∧
        (∀ turn ∈ feed.turns, turn.outcome = .ok ()) ∧
        (feed.engine.sync feed.queue {}).outcome = .ok ()) ∧
    ∀ before fragment after error, pushed events = before ++ fragment :: after →
      Draft.AdmitsAll engine.backend [] before →
      Draft.Refuses engine.backend before fragment error →
      whole.outcome = .error error ∧ whole.queue = ⟨after⟩ ∧
        (feed.taken.length ≤ before.length → ∀ turn ∈ feed.turns, turn.outcome = .ok ()) ∧
        (before.length < feed.taken.length →
          feed.running = none ∧ feed.engine = whole.engine ∧ feed.queue = ⟨after⟩ ∧
            ∃ earlier taken later,
              feed.turns = earlier ++ ⟨taken ++ [fragment], .error error⟩ :: later ∧
                (∀ turn ∈ earlier, turn.outcome = .ok ()) ∧
                earlier.flatMap Turn.taken ++ taken = before ∧
                ∀ turn ∈ later, turn = ⟨[], .error .draftPoisoned⟩) := by
  intro start feed whole
  have hempty : Follows engine [] start := .inl ⟨rfl, Draft.admitsAll_nil, rfl, by simp [start]⟩
  have hfollows : Follows engine (pushed events) feed := follows_run hempty events
  have hstart : start.engine.draft = .collect [] := rfl
  refine ⟨hfollows.taken_append, hfollows.outcome_ne_emptyQueue, fun hidle => ?_, fun hall => ?_,
    fun before fragment after error hpushed hadmits hrefuses => ?_⟩
  · obtain ⟨taken, hrun⟩ := run_alone hidle
    intro last
    simp only [last, hrun]
    exact ⟨hfollows.sync_eq.1, hfollows.sync_eq.2, trivial, taken, rfl⟩
  · have haccepts := hfollows.accepts_of_admitsAll hall
    have hwhole : whole.outcome = .ok () ∧ whole.queue = .empty := by
      simp only [whole, Engine.sync_eq_of_admitsAll hstart hall {}, and_self]
    obtain ⟨tally, hsync⟩ := haccepts.sync_eq
    rw [hsync]
    exact ⟨hwhole.1, hwhole.2, haccepts.succeeded, hwhole.1⟩
  · have hwhole := Engine.sync_eq_of_refuses hstart hadmits hrefuses after {}
    rw [← hpushed] at hwhole
    refine ⟨by simp only [whole, hwhole], by simp only [whole, hwhole], ?_⟩
    rcases hfollows.accepts_or_refused hpushed hadmits hrefuses with
      ⟨hlength, haccepts⟩ | ⟨hlength, hqueue, hrefused⟩
    · exact ⟨fun _ => haccepts.succeeded, fun htaken => absurd htaken (by omega)⟩
    · refine ⟨fun htaken => absurd htaken (by omega), fun _ =>
        ⟨hrefused.idle, ?_, hqueue, hrefused.turns⟩⟩
      simp only [whole, hwhole, hrefused.engine_eq, start]
      rfl

end Feed

end ScreenedQuery
