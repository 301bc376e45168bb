import EditorCore.Proofs.Manuscript

/-!
Contract: the events about the caret can be replayed.

Owns:
- `CursorWatch.replay`, where events lead a status display;
- `CursorWatch.News`, what an operation has to tell;
- that every operation queues its news, that fetching neither loses nor repeats an
  event, and that all events of a run lead to the position it ends in.

Does not own: when a status display fetches.
-/

namespace EditorCore

variable {κ : Type}

/-! ## Replaying -/

def CursorEvent.shown (position : Position) : CursorEvent → Position
  | .lineChanged line => { position with line }
  | .columnChanged column => { position with column }

namespace CursorWatch

/-- Where events lead a status display. -/
def replay (start : Position) (events : List CursorEvent) : Position :=
  events.foldl CursorEvent.shown start

/-- What there is to tell when the caret goes from one position to another. -/
structure News (before after : Position) (events : List CursorEvent) : Prop where
  same : after = before → events = []
  line : after.line ≠ before.line →
    events = [.lineChanged after.line, .columnChanged after.column]
  column : after.line = before.line → after.column ≠ before.column →
    events = [.columnChanged after.column]

/-- Events are replayed one after the other. -/
theorem replay_append (start : Position) (first second : List CursorEvent) :
    replay start (first ++ second) = replay (replay start first) second :=
  List.foldl_append

theorem News.replay_eq {before after : Position} {events : List CursorEvent}
    (news : News before after events) : replay before events = after := by
  by_cases line : after.line = before.line
  · by_cases column : after.column = before.column
    · have same : after = before := by
        cases after
        cases before
        cases line
        cases column
        rfl
      rw [news.same same, same]
      rfl
    · rw [news.column line column, replay, List.foldl_cons, List.foldl_nil, CursorEvent.shown,
        ← line]
  · rw [news.line line]
    rfl

/-- What is queued for a move is news of it. -/
theorem news_changes (before after : Position) :
    News before after (changes before after) where
  same := by
    intro same
    rw [changes, if_neg (by simp [same]), if_neg (by simp [same])]
  line := by
    intro line
    rw [changes, if_pos line]
  column := by
    intro line column
    rw [changes, if_neg (by simp [line]), if_pos column]

/-- A position seen before is no news. -/
theorem observe_previous (watch : CursorWatch) : watch.observe watch.previous = watch := by
  rw [observe, (news_changes watch.previous watch.previous).same rfl, List.append_nil]

end CursorWatch

/-- The events that an answer hands over. -/
def Answer.fetched : Answer → List CursorEvent
  | .events queued => queued
  | _ => []

theorem Answer.fetched_eq_nil {answer : Answer} (others : ∀ queued, answer ≠ .events queued) :
    answer.fetched = [] := by
  cases answer with
  | events queued => exact absurd rfl (others queued)
  | _ => rfl

/-- The watch of a manuscript that has seen the caret sees it wherever an operation
leaves it, once. -/
theorem Manuscript.Becomes.watch_eq {manuscript next : Manuscript}
    (becomes : manuscript.Becomes next)
    (watched : manuscript.watch.previous = manuscript.draft.position) :
    next.watch = manuscript.watch.observe next.draft.position := by
  have unchanged : manuscript.watch = manuscript.watch.observe manuscript.draft.position := by
    rw [← watched, CursorWatch.observe_previous]
  cases becomes with
  | kept => exact unchanged
  | settled => rfl
  | ticked => exact unchanged

/-! ## Editors -/

namespace Editor

variable [Coordinate κ] {editor next last : Editor κ} {draft : Draft} {call : Call κ}
variable {answer : Answer} {answers : List Answer}

/-- What a call does about the events: an operation queues its news behind those
that wait, and fetching hands over all that wait. -/
structure Notifies (editor : Editor κ) (call : Call κ) (next : Editor κ) (answer : Answer) :
    Prop where
  news : ∃ before after events, editor.position = .ok before ∧ next.position = .ok after ∧
    CursorWatch.News before after events ∧
      answer.fetched ++ next.watch.pending = editor.watch.pending ++ events
  fetches : call = .pollEvents → answer = .events editor.watch.pending ∧ next.watch.pending = []
  keeps : call ≠ .pollEvents → answer.fetched = []

/-- The events that a run queues, call by call. -/
inductive Tells : Editor κ → List (Call κ) → Editor κ → List CursorEvent → Prop
  | nothing (editor : Editor κ) : Tells editor [] editor []
  | call {editor next last : Editor κ} {call : Call κ} {later : List (Call κ)} {answer : Answer}
      {before after : Position} {events rest : List CursorEvent}
      (steps : editor.step call = .ok (next, answer)) (leaves : editor.position = .ok before)
      (arrives : next.position = .ok after) (news : CursorWatch.News before after events)
      (goesOn : Tells next later last rest) : Tells editor (call :: later) last (events ++ rest)

/-- An editor shows a draft, and the watch has seen the caret there. -/
structure Watched (editor : Editor κ) (draft : Draft) : Prop extends Shows editor draft where
  previous : editor.watch.previous = draft.position

theorem watched_blank {settings : Settings κ} (metrics : GlyphMetrics κ)
    (word : settings.capacity ≤ Word.largest) :
    (ofSettings settings metrics).Watched Draft.blank where
  toShows := shows_blank metrics word
  previous := rfl

/-- The step lemma: a call queues the news of its move and nothing else. -/
theorem Watched.notifies (watched : editor.Watched draft)
    (steps : editor.step call = .ok (next, answer)) :
    (∃ target, next.Watched target) ∧ editor.Notifies call next answer := by
  obtain ⟨target, expected, presents⟩ := (watched.toShows.tracks call).of_ok steps
  have position := watched.position_eq
  have arrives := presents.position_eq
  have watch : next.watch = target.watch := congrArg Manuscript.watch presents.manuscript_eq
  by_cases polls : call = .pollEvents
  · subst polls
    obtain ⟨rfl, rfl⟩ := Prod.mk.inj (Except.ok.inj expected)
    refine ⟨⟨draft, presents.toShows, ?_⟩, ⟨draft.position, draft.position, [], position, arrives,
      ⟨fun _ => rfl, fun line => absurd rfl line, fun _ column => absurd rfl column⟩, ?_⟩,
      fun _ => ⟨rfl, ?_⟩, fun other => absurd rfl other⟩
    · rw [watch]
      exact watched.previous
    · rw [watch]
      rfl
    · rw [watch]
      rfl
  · have acts : (editor.manuscript draft).Acts
        ((editor.manuscript draft).step editor.pointed call) :=
      (editor.manuscript draft).acts_step polls
    rw [expected] at acts
    obtain ⟨becomes, others⟩ := acts
    have silent := Answer.fetched_eq_nil others
    have observed := becomes.watch_eq watched.previous
    rw [← watch] at observed
    refine ⟨⟨target.draft, presents.toShows, congrArg CursorWatch.previous observed⟩,
      ⟨draft.position, target.draft.position, _, position, arrives,
        CursorWatch.news_changes _ _, ?_⟩, fun poll => absurd poll polls, fun _ => silent⟩
    rw [silent, List.nil_append, observed, ← watched.previous]
    rfl

/-- The run lemma: fetched and pending events are the news of all moves. -/
theorem Watched.run (watched : editor.Watched draft) {calls : List (Call κ)}
    (runs : editor.run calls = .ok (last, answers)) :
    (∃ target, last.Watched target) ∧ ∃ events, editor.Tells calls last events ∧
      answers.flatMap Answer.fetched ++ last.watch.pending = editor.watch.pending ++ events := by
  induction calls generalizing editor draft answers with
  | nil =>
      obtain ⟨rfl, rfl⟩ := Prod.mk.inj (Except.ok.inj runs)
      exact ⟨⟨draft, watched⟩, [], .nothing editor, (List.append_nil _).symm⟩
  | cons call later inductionHypothesis =>
      obtain ⟨next, answer, rest, steps, goesOn, rfl⟩ := exists_of_run_cons runs
      obtain ⟨⟨target, nextWatched⟩, notifies⟩ := watched.notifies steps
      obtain ⟨before, after, events, leaves, arrives, news, balance⟩ := notifies.news
      obtain ⟨lastWatched, later, tells, total⟩ := inductionHypothesis nextWatched goesOn
      refine ⟨lastWatched, events ++ later, .call steps leaves arrives news tells, ?_⟩
      rw [List.flatMap_cons, List.append_assoc, total, ← List.append_assoc, balance,
        List.append_assoc]

theorem Tells.replay_eq {calls : List (Call κ)} {events : List CursorEvent} {start : Position}
    (tells : editor.Tells calls last events) (position : editor.position = .ok start) :
    last.position = .ok (CursorWatch.replay start events) := by
  induction tells generalizing start with
  | nothing editor => exact position
  | call steps leaves arrives news goesOn inductionHypothesis =>
      obtain rfl := Except.ok.inj (position.symm.trans leaves)
      rw [CursorWatch.replay_append, news.replay_eq]
      exact inductionHypothesis arrives

/-- All events of a run, those fetched on the way and those that still wait, are the
news of its calls in order and lead to the position it ends in. -/
theorem notifications_replay {settings : Settings κ} {metrics : GlyphMetrics κ}
    {calls : List (Call κ)} (word : settings.capacity ≤ Word.largest)
    (creates : create settings metrics = .ok editor)
    (runs : editor.run calls = .ok (last, answers)) :
    last.position = .ok (CursorWatch.replay Position.zero
        (answers.flatMap Answer.fetched ++ last.watch.pending)) ∧
      editor.Tells calls last (answers.flatMap Answer.fetched ++ last.watch.pending) ∧
      ∀ (call : Call κ) (next : Editor κ) (answer : Answer),
        last.step call = .ok (next, answer) → last.Notifies call next answer := by
  obtain rfl := create_eq creates
  have watched := watched_blank metrics word
  obtain ⟨⟨target, lastWatched⟩, events, tells, total⟩ := watched.run runs
  have all : answers.flatMap Answer.fetched ++ last.watch.pending = events := total
  rw [all]
  exact ⟨tells.replay_eq watched.position_eq, tells,
    fun call next answer steps => (lastWatched.notifies steps).2⟩

/-- A status display fetches between two keys. -/
theorem notifications_replay_standard :
    ∃ (last : Editor Float32) (answers : List Answer),
      (Settings.standard : Settings Float32).capacity ≤ Word.largest ∧
      create Settings.standard (GlyphMetrics.monospace GlyphMetrics.standardCell) =
        .ok standard ∧
      standard.run [.insertChar 'a', .pollEvents, .insertLine] = .ok (last, answers) ∧
      last.position = .ok (CursorWatch.replay Position.zero
        (answers.flatMap Answer.fetched ++ last.watch.pending)) := by
  have word : (Settings.standard : Settings Float32).capacity ≤ Word.largest := by decide
  obtain ⟨last, answers, runs, -⟩ :=
    reachable_standard.of_run [.insertChar 'a', .pollEvents, .insertLine] (by decide +kernel)
  exact ⟨last, answers, word, rfl, runs, (notifications_replay word rfl runs).1⟩

end Editor

end EditorCore
