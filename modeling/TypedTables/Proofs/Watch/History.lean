import TypedTables.Template.Plain
import TypedTables.Proofs.Watch.Queue
import TypedTables.Watch.Watcher

/-!
Histories of a watcher: changes, checks of the queue and stops in any order, at times that never
decrease, while the files may change in any way in between. No change is lost, and no round comes
too early. Times and the delay are counted in any unit that all of them are multiples of, so that
arithmetic is exact.
-/

namespace TypedTables.Watch

inductive Action where
  | change (file : Path) (kind : ChangeKind)
  | tick
  | stop
  deriving DecidableEq, Repr

def Queue.act (q : Queue) (s : Scope) (delay time : Int) : Action → Option Batch × Queue
  | .change file kind => (none, if s.ignores file then q else q.push file kind time)
  | .tick => q.flush delay time
  | .stop => q.drain

/-- An action with what came of it: the round that was attempted, if any, and the queue after it. -/
structure Event where
  time : Int
  action : Action
  attempt? : Option Attempt
  queue : Queue

namespace Event

def Accepts (e : Event) (s : Scope) (file : Path) (kind : ChangeKind) : Prop :=
  e.action = .change file kind ∧ s.ignores file = false

def Ran (e : Event) (b : Batch) : Prop :=
  ∃ a, e.attempt? = some a ∧ a.batch? = some b

def step (e : Event) : Int × Action := (e.time, e.action)

def outline (e : Event) : (Int × Action) × Option Batch × Queue :=
  (e.step, e.attempt?.bind Attempt.batch?, e.queue)

end Event

namespace Watcher

def act [OverrideLanguage] (w : Watcher) (time : Int) : Action → Watcher × Option Attempt
  | .change file kind => (w.enqueue time file kind, none)
  | .tick => w.tick time
  | .stop => w.stop

def event [OverrideLanguage] (w : Watcher) (time : Int) (action : Action) : Event :=
  ⟨time, action, (w.act time action).2, (w.act time action).1.queue⟩

def withFiles (w : Watcher) (fs : FileSystem) : Watcher := { w with fs }

inductive Reached [OverrideLanguage] (start : Watcher) : List Event → Watcher → Prop
  | start : Reached start [] start
  | act {es : List Event} {w : Watcher} (past : Reached start es w) (fs : FileSystem) (time : Int)
      (action : Action) (clock : ∀ e ∈ es, e.time ≤ time) :
      Reached start ((w.withFiles fs).event time action :: es) ((w.withFiles fs).act time action).1

theorem attempt_spec [OverrideLanguage] (w : Watcher) (batch? : Option Batch) :
    (w.attempt batch?).1.queue = w.queue ∧ (w.attempt batch?).1.scope = w.scope ∧
      (w.attempt batch?).1.delay = w.delay ∧ (w.attempt batch?).2.batch? = batch? := by
  rw [attempt]
  dsimp only
  split <;> exact ⟨rfl, rfl, rfl, rfl⟩

theorem attemptBatch_spec [OverrideLanguage] (w : Watcher) (name : String) (batch? : Option Batch) :
    (w.attemptBatch name batch?).1.queue = w.queue ∧
      (w.attemptBatch name batch?).1.scope = w.scope ∧
      (w.attemptBatch name batch?).1.delay = w.delay ∧
      (w.attemptBatch name batch?).2.map Attempt.batch? = batch?.map some := by
  cases batch? with
  | none => exact ⟨rfl, rfl, rfl, rfl⟩
  | some batch =>
      obtain ⟨hqueue, hscope, hdelay, hbatch⟩ := w.attempt_spec (some batch)
      rw [attemptBatch]
      dsimp only
      split
      · exact ⟨hqueue, hscope, hdelay, congrArg some hbatch⟩
      · exact ⟨hqueue, hscope, hdelay, congrArg some hbatch⟩

/-- Whatever comes of rounds, the queue goes its own way. -/
theorem act_spec [OverrideLanguage] (w : Watcher) (time : Int) (action : Action) :
    (w.act time action).1.queue = (w.queue.act w.scope w.delay time action).2 ∧
      (w.act time action).1.scope = w.scope ∧ (w.act time action).1.delay = w.delay ∧
      (w.act time action).2.map Attempt.batch? =
        (w.queue.act w.scope w.delay time action).1.map some := by
  cases action with
  | change file kind =>
      rw [act, enqueue, Queue.act]
      split
      · exact ⟨rfl, rfl, rfl, rfl⟩
      · exact ⟨rfl, rfl, rfl, rfl⟩
  | tick => exact attemptBatch_spec { w with queue := (w.queue.flush w.delay time).2 } _ _
  | stop => exact attemptBatch_spec { w with queue := w.queue.drain.2 } _ _

end Watcher

def pendingAfter (es : List Event) : Queue := (es.head?.map Event.queue).getD []

inductive LastChange (s : Scope) (file : Path) : List Event → ChangeKind → Int → Prop
  | here {e : Event} {es : List Event} {kind : ChangeKind} (h : e.Accepts s file kind) :
      LastChange s file (e :: es) kind e.time
  | before {e : Event} {es : List Event} {kind : ChangeKind} {time : Int}
      (h : ∀ kind, ¬ e.Accepts s file kind) (past : LastChange s file es kind time) :
      LastChange s file (e :: es) kind time

/-- A change of a file is still in the queue, or some event after it has run a round for it, and
not before it had settled unless the watcher was stopped. -/
def Covered (delay : Int) (q : Queue) (later : List Event) (e : Event) (file : Path) : Prop :=
  (∃ p, (file, p) ∈ q ∧ e.time ≤ p.time) ∨
    ∃ l ∈ later, ∃ b kind, l.Ran b ∧ (file, kind) ∈ b ∧
      (l.action = .tick ∧ e.time + delay ≤ l.time ∨ l.action = .stop)

structure ActsOn (e : Event) (q : Queue) (s : Scope) (delay : Int) : Prop where
  queue : e.queue = (q.act s delay e.time e.action).2
  batch : e.attempt?.map Attempt.batch? = (q.act s delay e.time e.action).1.map some

theorem Watcher.actsOn_event [OverrideLanguage] (w : Watcher) (time : Int) (action : Action)
    {s : Scope} {delay : Int} (hscope : w.scope = s) (hdelay : w.delay = delay) :
    ActsOn (w.event time action) w.queue s delay := by
  obtain ⟨hqueue, -, -, hbatch⟩ := w.act_spec time action
  subst hscope hdelay
  exact ⟨hqueue, hbatch⟩

namespace ActsOn

variable {e : Event} {q : Queue} {s : Scope} {delay : Int}

theorem attempt_cases (h : ActsOn e q s delay) :
    (e.attempt? = none ∧ (q.act s delay e.time e.action).1 = none) ∨
      ∃ a b, e.attempt? = some a ∧ a.batch? = some b ∧
        (q.act s delay e.time e.action).1 = some b := by
  have hbatch := h.batch
  cases hattempt : e.attempt? with
  | none =>
      rw [hattempt] at hbatch
      exact .inl ⟨rfl, Option.map_eq_none_iff.mp hbatch.symm⟩
  | some a =>
      rw [hattempt] at hbatch
      obtain ⟨b, hleft, hb⟩ := Option.map_eq_some_iff.mp hbatch.symm
      exact .inr ⟨a, b, rfl, hb.symm, hleft⟩

theorem ran_iff (h : ActsOn e q s delay) {b : Batch} :
    e.Ran b ↔ (q.act s delay e.time e.action).1 = some b := by
  rcases h.attempt_cases with ⟨hnone, hleft⟩ | ⟨a, b', hsome, hb, hleft⟩
  · simp [Event.Ran, hnone, hleft]
  · simp [Event.Ran, hsome, hb, hleft]

theorem idle_iff (h : ActsOn e q s delay) :
    e.attempt? = none ↔ (q.act s delay e.time e.action).1 = none := by
  rcases h.attempt_cases with ⟨hnone, hleft⟩ | ⟨a, b', hsome, hb, hleft⟩
  · simp [hnone, hleft]
  · simp [hsome, hleft]

theorem outline_eq (h : ActsOn e q s delay) :
    e.outline = (e.step, q.act s delay e.time e.action) := by
  rw [Event.outline, h.queue]
  rcases h.attempt_cases with ⟨hnone, hleft⟩ | ⟨a, b', hsome, hb, hleft⟩
  · rw [hnone, Option.bind_none, ← hleft]
  · rw [hsome, Option.bind_some, hb, ← hleft]

theorem change_cases (h : ActsOn e q s delay) {file : Path} {kind : ChangeKind}
    (haction : e.action = .change file kind) :
    e.attempt? = none ∧
      (s.ignores file = true ∧ e.queue = q ∨
        s.ignores file = false ∧ e.queue = q.push file kind e.time) := by
  have hidle := h.idle_iff
  have hqueue := h.queue
  rw [haction, Queue.act] at hidle hqueue
  refine ⟨hidle.mpr rfl, ?_⟩
  by_cases hignored : s.ignores file = true
  · exact .inl ⟨hignored, by simpa [hignored] using hqueue⟩
  · rw [Bool.not_eq_true] at hignored
    exact .inr ⟨hignored, by simpa [hignored] using hqueue⟩

theorem tick_cases (h : ActsOn e q s delay) (haction : e.action = .tick) :
    (e.Ran q.batch ∧ e.queue = [] ∧ q ≠ [] ∧ ∀ entry ∈ q, entry.2.time + delay ≤ e.time) ∨
      e.attempt? = none ∧ e.queue = q ∧
        (q ≠ [] → ∃ entry ∈ q, e.time < entry.2.time + delay) := by
  have hran := h.ran_iff (b := q.batch)
  have hidle := h.idle_iff
  have hqueue := h.queue
  rw [haction, Queue.act] at hran hidle hqueue
  rcases q.flush_cases delay e.time with ⟨hflush, hne, hsettled⟩ | ⟨hflush, hyoung⟩
  · rw [hflush] at hran hqueue
    exact .inl ⟨hran.mpr rfl, hqueue, hne, hsettled⟩
  · rw [hflush] at hidle hqueue
    exact .inr ⟨hidle.mpr rfl, hqueue, hyoung⟩

theorem stop_cases (h : ActsOn e q s delay) (haction : e.action = .stop) :
    e.queue = [] ∧ (e.Ran q.batch ∧ q ≠ [] ∨ e.attempt? = none ∧ q = []) := by
  have hran := h.ran_iff (b := q.batch)
  have hidle := h.idle_iff
  have hqueue := h.queue
  rw [haction, Queue.act] at hran hidle hqueue
  rcases q.drain_cases with ⟨hdrain, hne⟩ | ⟨hdrain, hnil⟩
  · rw [hdrain] at hran hqueue
    exact ⟨hqueue, .inl ⟨hran.mpr rfl, hne⟩⟩
  · rw [hdrain] at hidle hqueue
    exact ⟨hqueue, .inr ⟨hidle.mpr rfl, hnil⟩⟩

theorem ran_cases (h : ActsOn e q s delay) {b : Batch} (hran : e.Ran b) :
    b = q.batch ∧ q ≠ [] ∧
      (e.action = .tick ∧ (∀ entry ∈ q, entry.2.time + delay ≤ e.time) ∨ e.action = .stop) := by
  have hleft := h.ran_iff.mp hran
  cases haction : e.action with
  | change file kind =>
      rw [haction, Queue.act] at hleft
      cases hleft
  | tick =>
      rw [haction, Queue.act] at hleft
      rcases q.flush_cases delay e.time with ⟨hflush, hne, hsettled⟩ | ⟨hflush, -⟩
      · rw [hflush] at hleft
        exact ⟨(Option.some.inj hleft).symm, hne, .inl ⟨rfl, hsettled⟩⟩
      · rw [hflush] at hleft
        cases hleft
  | stop =>
      rw [haction, Queue.act] at hleft
      rcases q.drain_cases with ⟨hdrain, hne⟩ | ⟨hdrain, -⟩
      · rw [hdrain] at hleft
        exact ⟨(Option.some.inj hleft).symm, hne, .inr rfl⟩
      · rw [hdrain] at hleft
        cases hleft

/-- A pending change stays pending, gives way to a later one of its file, or gets its round. -/
theorem keeps_or_runs (h : ActsOn e q s delay) (hnodup : (q.map Prod.fst).Nodup) {file : Path}
    {p : Pending} (hmem : (file, p) ∈ q) (hclock : p.time ≤ e.time) :
    (∃ p', (file, p') ∈ e.queue ∧ p.time ≤ p'.time) ∨
      ∃ b, e.Ran b ∧ (file, p.kind) ∈ b ∧
        (e.action = .tick ∧ p.time + delay ≤ e.time ∨ e.action = .stop) := by
  cases haction : e.action with
  | change file' kind =>
      left
      rcases (h.change_cases haction).2 with ⟨-, hqueue⟩ | ⟨-, hqueue⟩
      · exact ⟨p, by rwa [hqueue], Int.le_refl _⟩
      · rw [hqueue]
        by_cases hfile : file = file'
        · subst hfile
          exact ⟨⟨kind, e.time⟩, (Queue.mem_push hnodup).mpr (.inl rfl), hclock⟩
        · exact ⟨p, (Queue.mem_push hnodup).mpr (.inr ⟨hfile, hmem⟩), Int.le_refl _⟩
  | tick =>
      rcases h.tick_cases haction with ⟨hran, -, -, hsettled⟩ | ⟨-, hqueue, -⟩
      · exact .inr ⟨_, hran, Queue.mem_batch.mpr ⟨_, hmem⟩, .inl ⟨rfl, hsettled _ hmem⟩⟩
      · exact .inl ⟨p, by rwa [hqueue], Int.le_refl _⟩
  | stop =>
      rcases (h.stop_cases haction).2 with ⟨hran, -⟩ | ⟨-, hnil⟩
      · exact .inr ⟨_, hran, Queue.mem_batch.mpr ⟨_, hmem⟩, .inr rfl⟩
      · rw [hnil] at hmem
        cases hmem

end ActsOn

theorem LastChange.exists_event {s : Scope} {file : Path} {es : List Event} {kind : ChangeKind}
    {time : Int} (h : LastChange s file es kind time) :
    ∃ e ∈ es, e.Accepts s file kind ∧ e.time = time := by
  induction h with
  | here h => exact ⟨_, List.mem_cons_self, h, rfl⟩
  | before h past ih =>
      obtain ⟨e, he, haccepts, htime⟩ := ih
      exact ⟨e, List.mem_cons_of_mem _ he, haccepts, htime⟩

namespace Watcher.Reached

variable [OverrideLanguage] {start w : Watcher} {es : List Event}

theorem settings (h : Reached start es w) : w.scope = start.scope ∧ w.delay = start.delay := by
  induction h with
  | start => exact ⟨rfl, rfl⟩
  | @act es w past fs time action clock ih =>
      obtain ⟨-, hscope, hdelay, -⟩ := (w.withFiles fs).act_spec time action
      exact ⟨hscope.trans ih.1, hdelay.trans ih.2⟩

theorem exists_before {later earlier : List Event} {e : Event}
    (h : Reached start (later ++ e :: earlier) w) :
    ∃ w', Reached start earlier w' ∧ ActsOn e w'.queue start.scope start.delay ∧
      ∀ e' ∈ earlier, e'.time ≤ e.time := by
  induction later generalizing w with
  | nil =>
      cases h with
      | @act _ w' past fs time action clock =>
          obtain ⟨hscope, hdelay⟩ := past.settings
          exact ⟨w', past, actsOn_event (w'.withFiles fs) time action hscope hdelay, clock⟩
  | cons l later ih =>
      cases h with
      | act past fs time action clock => exact ih past

theorem queue_eq (hstart : start.queue = []) (h : Reached start es w) :
    w.queue = pendingAfter es := by
  cases h with
  | start => exact hstart
  | act past fs time action clock => rfl

theorem queue_holds (hstart : start.queue = []) (h : Reached start es w) :
    (w.queue.map Prod.fst).Nodup ∧
      ∀ file p, (file, p) ∈ w.queue → LastChange start.scope file es p.kind p.time := by
  induction h with
  | start => simp [hstart]
  | @act es w past fs time action clock ih =>
      obtain ⟨hnodup, hlast⟩ := ih
      obtain ⟨hscope, hdelay⟩ := past.settings
      have hacts := actsOn_event (w.withFiles fs) time action hscope hdelay
      have hother : ∀ file, (∀ kind, action ≠ .change file kind) → ∀ kind,
          ¬ ((w.withFiles fs).event time action).Accepts start.scope file kind :=
        fun file hne kind haccepts => hne kind haccepts.1
      change (((w.withFiles fs).event time action).queue.map Prod.fst).Nodup ∧
        ∀ file p, (file, p) ∈ ((w.withFiles fs).event time action).queue → _
      cases action with
      | change file kind =>
          rcases (hacts.change_cases rfl).2 with ⟨hignored, hqueue⟩ | ⟨haccepted, hqueue⟩
          · rw [hqueue]
            refine ⟨hnodup, ?_⟩
            intro file' p hmem
            refine .before ?_ (hlast file' p hmem)
            rintro kind' ⟨haction, hnot⟩
            obtain ⟨rfl, rfl⟩ := Action.change.inj haction
            rw [hignored] at hnot
            cases hnot
          · rw [hqueue]
            refine ⟨Queue.nodup_push hnodup file kind time, ?_⟩
            intro file' p hmem
            rcases (Queue.mem_push hnodup).mp hmem with heq | ⟨hne, hmem⟩
            · obtain ⟨rfl, rfl⟩ := Prod.mk.inj heq
              exact .here ⟨rfl, haccepted⟩
            · refine .before (hother file' ?_) (hlast file' p hmem)
              rintro kind' haction
              exact hne (Action.change.inj haction).1.symm
      | tick =>
          rcases hacts.tick_cases rfl with ⟨-, hqueue, -, -⟩ | ⟨-, hqueue, -⟩
          · simp [hqueue]
          · rw [hqueue]
            refine ⟨hnodup, ?_⟩
            intro file p hmem
            exact .before (hother file (by simp)) (hlast file p hmem)
      | stop => simp [(hacts.stop_cases rfl).1]

theorem covered (hstart : start.queue = []) (h : Reached start es w) {later earlier : List Event}
    {e : Event} (hes : es = later ++ e :: earlier) {file : Path} {kind : ChangeKind}
    (haccepts : e.Accepts start.scope file kind) : Covered start.delay w.queue later e file := by
  induction h generalizing later with
  | start => simp at hes
  | @act es w past fs time action clock ih =>
      obtain ⟨hnodup, hlast⟩ := past.queue_holds hstart
      obtain ⟨hscope, hdelay⟩ := past.settings
      have hacts := actsOn_event (w.withFiles fs) time action hscope hdelay
      cases later with
      | nil =>
          obtain ⟨rfl, -⟩ := List.cons.inj hes
          obtain ⟨haction, hnot⟩ := haccepts
          rcases (hacts.change_cases haction).2 with ⟨hignored, -⟩ | ⟨-, hqueue⟩
          · rw [hignored] at hnot
            cases hnot
          · refine .inl ⟨⟨kind, time⟩, ?_, Int.le_refl _⟩
            change _ ∈ ((w.withFiles fs).event time action).queue
            rw [hqueue]
            exact (Queue.mem_push hnodup).mpr (.inl rfl)
      | cons l later =>
          obtain ⟨rfl, hrest⟩ := List.cons.inj hes
          rcases ih hrest with ⟨p, hmem, htime⟩ | ⟨l, hl, hran⟩
          · obtain ⟨e', he', -, htime'⟩ := (hlast file p hmem).exists_event
            rcases hacts.keeps_or_runs hnodup hmem (htime' ▸ clock e' he') with
              ⟨p', hmem', hle⟩ | ⟨b, hran, hfile, hwhen⟩
            · exact .inl ⟨p', hmem', Int.le_trans htime hle⟩
            · refine .inr ⟨_, List.mem_cons_self, b, p.kind, hran, hfile, ?_⟩
              refine hwhen.imp_left fun ⟨htick, hsettled⟩ => ⟨htick, ?_⟩
              omega
          · exact .inr ⟨l, List.mem_cons_of_mem _ hl, hran⟩

/-- What rounds come to has no bearing on queues and batches. -/
theorem outlines_eq {start' w' : Watcher} {es' : List Event} (hscope : start'.scope = start.scope)
    (hdelay : start'.delay = start.delay) (hqueue : start'.queue = start.queue)
    (h : Reached start es w) (h' : Reached start' es' w')
    (hsteps : es'.map Event.step = es.map Event.step) :
    es'.map Event.outline = es.map Event.outline ∧ w'.queue = w.queue := by
  induction h generalizing es' w' with
  | start =>
      cases h' with
      | start => exact ⟨rfl, hqueue⟩
      | act => simp at hsteps
  | @act es w past fs time action clock ih =>
      cases h' with
      | start => simp at hsteps
      | @act es' w' past' fs' time' action' clock' =>
          obtain ⟨hstep, hrest⟩ := List.cons.inj hsteps
          obtain ⟨hsame, hpending⟩ := ih past' hrest
          have hacts := actsOn_event (w.withFiles fs) time action past.settings.1 past.settings.2
          have hacts' := actsOn_event (w'.withFiles fs') time' action'
            (past'.settings.1.trans hscope) (past'.settings.2.trans hdelay)
          have hlast : ((w'.withFiles fs').event time' action').outline =
              ((w.withFiles fs).event time action).outline := by
            obtain ⟨rfl, rfl⟩ := Prod.mk.inj hstep
            rw [hacts.outline_eq, hacts'.outline_eq]
            exact congrArg
              (fun q => ((time', action'), q.act start.scope start.delay time' action'))
              hpending
          refine ⟨?_, congrArg (fun o => o.2.2) hlast⟩
          rw [List.map_cons, List.map_cons, hlast, hsame]

end Watcher.Reached

structure Debounced [OverrideLanguage] (start : Watcher) (es : List Event) (w : Watcher)
    : Prop where
  queue : w.queue = pendingAfter es
  covered : ∀ later e earlier, es = later ++ e :: earlier → ∀ file kind,
    e.Accepts start.scope file kind → Covered start.delay w.queue later e file
  batches : ∀ later e earlier, es = later ++ e :: earlier → ∀ b, e.Ran b →
    b ≠ [] ∧ (b.map Prod.fst).Nodup ∧ ∀ file kind, (file, kind) ∈ b →
      ∃ time, LastChange start.scope file earlier kind time ∧
        (e.action = .tick ∧ time + start.delay ≤ e.time ∨ e.action = .stop)
  ticks : ∀ later e earlier, es = later ++ e :: earlier → e.action = .tick →
    (e.Ran (pendingAfter earlier).batch ∧ e.queue = []) ∨
      e.attempt? = none ∧ e.queue = pendingAfter earlier ∧
        (e.queue ≠ [] → ∃ entry ∈ e.queue, e.time < entry.2.time + start.delay)
  stops : ∀ later e earlier, es = later ++ e :: earlier → e.action = .stop →
    e.queue = [] ∧ if pendingAfter earlier = [] then e.attempt? = none
      else e.Ran (pendingAfter earlier).batch
  outcomes : ∀ start' es' w', start'.scope = start.scope → start'.delay = start.delay →
    start'.queue = [] → Watcher.Reached start' es' w' →
      es'.map Event.step = es.map Event.step → es'.map Event.outline = es.map Event.outline

theorem debounced [OverrideLanguage] {start w : Watcher} {es : List Event}
    (hstart : start.queue = []) (h : Watcher.Reached start es w) : Debounced start es w := by
  constructor
  case queue => exact h.queue_eq hstart
  case covered =>
    intro later e earlier hes file kind haccepts
    exact h.covered hstart hes haccepts
  case batches =>
    rintro later e earlier rfl b hran
    obtain ⟨w', past, hacts, -⟩ := h.exists_before
    obtain ⟨hnodup, hlast⟩ := past.queue_holds hstart
    obtain ⟨rfl, hne, haction⟩ := hacts.ran_cases hran
    refine ⟨by simpa [Queue.batch] using hne, by rwa [Queue.map_fst_batch], ?_⟩
    intro file kind hmem
    obtain ⟨time, hmem⟩ := Queue.mem_batch.mp hmem
    refine ⟨time, hlast file _ hmem, haction.imp_left (And.imp_right ?_)⟩
    intro hsettled
    exact hsettled _ hmem
  case ticks =>
    rintro later e earlier rfl haction
    obtain ⟨w', past, hacts, -⟩ := h.exists_before
    rw [← past.queue_eq hstart]
    rcases hacts.tick_cases haction with ⟨hran, hqueue, -, -⟩ | ⟨hidle, hqueue, hyoung⟩
    · exact .inl ⟨hran, hqueue⟩
    · exact .inr ⟨hidle, hqueue, by rwa [hqueue]⟩
  case stops =>
    rintro later e earlier rfl haction
    obtain ⟨w', past, hacts, -⟩ := h.exists_before
    rw [← past.queue_eq hstart]
    obtain ⟨hqueue, ⟨hran, hne⟩ | ⟨hidle, hnil⟩⟩ := hacts.stop_cases haction
    · exact ⟨hqueue, by rwa [if_neg hne]⟩
    · exact ⟨hqueue, by rwa [if_pos hnil]⟩
  case outcomes =>
    intro start' es' w' hscope hdelay hstart' h' hsteps
    exact (h.outlines_eq hscope hdelay (hstart'.trans hstart.symm) h' hsteps).1

def lookout : Watcher :=
  .create {} [Path.ofText "/src"] 500 (fun count => if count = 1 then some "disk full" else none)
    ⟨.dir [("src", .empty)], [], []⟩

theorem debounced_lookout :
    lookout.queue = [] ∧ ∃ es w, Watcher.Reached lookout es w ∧
      es.map Event.step = [
        (1200, .stop), (1100, .change (Path.ofText "/src/b.py") .delete), (1000, .tick),
        (500, .tick), (400, .change (Path.ofText "/src/a.py") .delete),
        (300, .change (Path.ofText "/src/b.py") .upsert),
        (0, .change (Path.ofText "/src/a.py") .upsert)] ∧
      es.map (fun e => e.attempt?.map Attempt.batch?) = [
        some (some [(Path.ofText "/src/b.py", .delete)]), none,
        some (some [(Path.ofText "/src/a.py", .delete), (Path.ofText "/src/b.py", .upsert)]), none,
        none, none, none] ∧
      es.map (fun e => e.attempt?.any (fun a => a.result.toOption.isNone)) =
        [false, false, true, false, false, false, false] ∧
      Debounced lookout es w := by
  have hstart : Watcher.Reached lookout [] lookout := .start
  have hcreated := hstart.act lookout.fs 0 (.change (Path.ofText "/src/a.py") .upsert) (by simp)
  have hother := hcreated.act lookout.fs 300 (.change (Path.ofText "/src/b.py") .upsert)
    (by simp [Watcher.event])
  have hremoved := hother.act lookout.fs 400 (.change (Path.ofText "/src/a.py") .delete)
    (by simp [Watcher.event])
  have hearly := hremoved.act lookout.fs 500 .tick (by simp [Watcher.event])
  have hlate := hearly.act lookout.fs 1000 .tick (by simp [Watcher.event])
  have hlast := hlate.act lookout.fs 1100 (.change (Path.ofText "/src/b.py") .delete)
    (by simp [Watcher.event])
  have hall := hlast.act lookout.fs 1200 .stop (by simp [Watcher.event])
  exact ⟨rfl, _, _, hall, by decide +kernel, by decide +kernel, by decide +kernel,
    debounced rfl hall⟩

end TypedTables.Watch
