import Chanserv.Bot.World
import Chanserv.Queue.Order

/-! The threads of the process, from the start of `bot_start` to the end of `main`.

The listener for Jira's webhooks queues a task and answers, and looks at the stop flag
between two requests. The main loop looks at the flag between two polls, runs what is
pending once more, and only then waits for the listener to end: what is queued in
between is never run. -/
namespace Chanserv.Queue
open Text Program

inductive Thread where
  | main | jiraListener | monitorMemSizeWorker
deriving DecidableEq

inductive MainAt where
  /-- `bot_start`, before its loop. -/
  | starting
  /-- `while (!stop_requested())` -/
  | looping
  /-- In `run_pending`, in the loop or after it. -/
  | draining (last : Bool)
  | polling
  | leaving
  | joiningListener
  | joiningMonitor
  | returned
deriving DecidableEq

inductive ListenerAt where
  | starting
  /-- In the event loop, between two requests. -/
  | serving
  | accepted (path : Text)
  | posting (path : Text)
  | ended

inductive MonitorAt where
  | due
  | posting
  | waiting
  | ended

structure Process where
  mMainTasks : TaskQueue Thread Task := {}
  stopRequested : Bool := false
  main : MainAt := .starting
  listener : ListenerAt := .starting
  monitor : MonitorAt := .due

inductive ProcessEvent where
  | queue (e : Event Task)
  /-- 200, "Queued" -/
  | answered (path : Text)
  | forbidden
deriving DecidableEq

/-- Steps inside of calls under way: none begins, and `run_pending` does not end. -/
structure InCall (q q' : TaskQueue Thread Task) : Prop where
  posting : ∀ t, q.posting t = .outside → q'.posting t = .outside
  running : q'.running = .outside ↔ q.running = .outside

inductive Process.Step : Process → List ProcessEvent → Process → Prop
  /-- A signal, at any time. -/
  | signal {p : Process} : Step p [] {p with stopRequested := true}
  | call {p : Process} {es : List (Event Task)} {q : TaskQueue Thread Task}
    (hstep : Queue.Step .main p.mMainTasks es q) (hcall : InCall p.mMainTasks q) :
    Step p (es.map .queue) {p with mMainTasks := q}
  -- the listener
  /-- No secret is set, or the port can not be listened to. -/
  | disabled {p : Process} (h : p.listener = .starting) : Step p [] {p with listener := .ended}
  | listen {p : Process} (h : p.listener = .starting) : Step p [] {p with listener := .serving}
  | reject {p : Process} (h : p.listener = .serving) : Step p [.forbidden] p
  | accept {p : Process} {path : Text} (h : p.listener = .serving) :
    Step p [] {p with listener := .accepted path}
  | post {p : Process} {path : Text} (h : p.listener = .accepted path)
    (hout : p.mMainTasks.posting .jiraListener = .outside) :
    Step p [] {p with
      listener := .posting path
      mMainTasks := p.mMainTasks.setPosting .jiraListener (.locking (.jiraWebhook path))}
  | answer {p : Process} {path : Text} (h : p.listener = .posting path)
    (hout : p.mMainTasks.posting .jiraListener = .outside) :
    Step p [.answered path] {p with listener := .serving}
  /-- The timer of 500 ms. -/
  | stopCheck {p : Process} (h : p.listener = .serving) (hstop : p.stopRequested = true) :
    Step p [] {p with listener := .ended}
  -- the monitor
  | report {p : Process} (h : p.monitor = .due) (hout : p.mMainTasks.posting .monitorMemSizeWorker = .outside) :
    Step p [] {p with
      monitor := .posting
      mMainTasks := p.mMainTasks.setPosting .monitorMemSizeWorker (.locking .qtBgWorker)}
  | reported {p : Process} (h : p.monitor = .posting)
    (hout : p.mMainTasks.posting .monitorMemSizeWorker = .outside) : Step p [] {p with monitor := .waiting}
  | wake {p : Process} (h : p.monitor = .waiting) :
    Step p [] {p with monitor := if p.stopRequested then .ended else .due}
  -- the main thread
  | enter {p : Process} (h : p.main = .starting) : Step p [] {p with main := .looping}
  /-- An exception before the loop. -/
  | fail {p : Process} (h : p.main = .starting) : Step p [] {p with main := .leaving}
  | drain {p : Process} (h : p.main = .looping) (hrun : p.mMainTasks.running = .outside)
    (hout : p.mMainTasks.posting .main = .outside) :
    Step p [] {p with
      main := .draining p.stopRequested, mMainTasks := {p.mMainTasks with running := .locking}}
  | drained {p : Process} {last : Bool} {size : Nat} (h : p.main = .draining last)
    (hrun : p.mMainTasks.running = .next [] size) :
    Step p [.queue (.returned size)] {p with
      main := if last then .leaving else .polling, mMainTasks := {p.mMainTasks with running := .outside}}
  | threw {p : Process} {last : Bool} {left : List Task} {size : Nat} (h : p.main = .draining last)
    (hrun : p.mMainTasks.running = .inTask left size) (hout : p.mMainTasks.posting .main = .outside) :
    Step p [.queue .threw] {p with
      main := .leaving, mMainTasks := {p.mMainTasks with running := .outside}}
  /-- A poll ends, or the pause after an error of it. -/
  | polled {p : Process} (h : p.main = .polling) : Step p [] {p with main := .looping}
  | requestStop {p : Process} (h : p.main = .leaving) :
    Step p [] {p with main := .joiningListener, stopRequested := true}
  | joinListener {p : Process} (h : p.main = .joiningListener) (hended : p.listener = .ended) :
    Step p [] {p with main := .joiningMonitor}
  | joinMonitor {p : Process} (h : p.main = .joiningMonitor) (hended : p.monitor = .ended) :
    Step p [] {p with main := .returned}

/-! ### What a run says -/

def ProcessEvent.queue? : ProcessEvent → Option (Event Task)
  | .queue e => some e
  | _ => none

def ProcessEvent.answer? : ProcessEvent → Option Text
  | .answered path => some path
  | _ => none

def webhook? : Task → Option Text
  | .jiraWebhook path => some path
  | .qtBgWorker => none

/-- What happens to the tasks. -/
def queueEvents (es : List ProcessEvent) : List (Event Task) := es.filterMap ProcessEvent.queue?

/-- The paths of the requests answered "Queued", in the order of the answers. -/
def answered (es : List ProcessEvent) : List Text := es.filterMap ProcessEvent.answer?

/-- The paths of the webhooks among some tasks. -/
def webhooks (tasks : List Task) : List Text := tasks.filterMap webhook?

section
variable {es es' : List ProcessEvent}

@[simp] theorem queueEvents_append : queueEvents (es ++ es') = queueEvents es ++ queueEvents es' :=
  List.filterMap_append

@[simp] theorem answered_append : answered (es ++ es') = answered es ++ answered es' :=
  List.filterMap_append

@[simp] theorem webhooks_append {tasks tasks' : List Task} :
    webhooks (tasks ++ tasks') = webhooks tasks ++ webhooks tasks' := List.filterMap_append

@[simp] theorem queueEvents_call (es : List (Event Task)) : queueEvents (es.map .queue) = es := by
  induction es with
  | nil => rfl
  | cons e es ih => exact congrArg (e :: ·) ih

@[simp] theorem answered_call (es : List (Event Task)) : answered (es.map .queue) = [] := by
  induction es with
  | nil => rfl
  | cons e es ih => exact ih

end

/-! ### The queue within the process -/

section
variable {p p' : Process} {es : List ProcessEvent}

/-- Each step is one of the queue, or leaves the queue alone. -/
theorem Process.Step.queue_step (h : Process.Step p es p') :
    Queue.Step .main p.mMainTasks (queueEvents es) p'.mMainTasks ∨
      queueEvents es = [] ∧ p'.mMainTasks = p.mMainTasks := by
  cases h with
  | call hstep hcall =>
    rw [queueEvents_call]
    exact .inl hstep
  | post h hout => exact .inl (.post hout fun ht => by cases ht)
  | report h hout => exact .inl (.post hout fun ht => by cases ht)
  | drain h hrun hout => exact .inl (.runPending hrun hout)
  | drained h hrun => exact .inl (.returns hrun)
  | threw h hrun hout => exact .inl (.throws hrun hout)
  | _ => exact .inr ⟨rfl, rfl⟩

theorem queue_run (h : Runs Process.Step {} es p) :
    Runs (Queue.Step .main) {} (queueEvents es) p.mMainTasks :=
  h.part fun _ _ _ hs => hs.queue_step

end

/-! ### Who posts what -/

/-- The task a thread has yet to post. -/
def Posting.task {τ : Type} : Posting τ → Option τ
  | .locking task | .reading task | .writing task _ => some task
  | _ => none

/-- Within calls under way one task is posted, or none. -/
theorem call_posts {q q' : TaskQueue Thread Task} {es : List (Event Task)}
    (hstep : Queue.Step .main q es q') (hcall : InCall q q') :
    (∃ t task, posted es = [task] ∧ (q.posting t).task = some task ∧ (q'.posting t).task = none ∧
        ∀ u, u ≠ t → q'.posting u = q.posting u) ∨
      posted es = [] ∧ ∀ u, (q'.posting u).task = (q.posting u).task := by
  have hsame {t : Thread} {x : Posting Task} (hx : x.task = (q.posting t).task) (u : Thread) :
      ((q.setPosting t x).posting u).task = (q.posting u).task := by
    by_cases hu : u = t
    · rw [hu, setPosting_self, hx]
    · rw [setPosting_ne x hu]
  cases hstep with
  | @post t task h =>
    have hout := hcall.posting t h
    rw [setPosting_self] at hout
    cases hout
  | lock h => exact .inr ⟨rfl, hsame (by rw [h]; rfl)⟩
  | read h => exact .inr ⟨rfl, hsame (by rw [h]; rfl)⟩
  | @push t task seen h =>
    refine .inl ⟨t, task, rfl, by rw [h]; rfl, ?_, fun u hu => setPosting_ne _ hu⟩
    show ((q.setPosting t .unlocking).posting t).task = none
    rw [setPosting_self]
    rfl
  | unlock h => exact .inr ⟨rfl, hsame (by rw [h]; rfl)⟩
  | _ => exact .inr ⟨rfl, fun _ => rfl⟩

/-- Where the threads are: the listener posts webhooks and answers what it has posted, the monitor
posts its report, the main thread posts nothing. -/
structure Coherent (es : List ProcessEvent) (p : Process) : Prop where
  main : p.mMainTasks.posting .main = .outside
  drains : (∀ last, p.main ≠ .draining last) → p.mMainTasks.running = .outside
  monitor : ∀ task, (p.mMainTasks.posting .monitorMemSizeWorker).task = some task → task = .qtBgWorker
  /-- Between two posts, all webhooks posted are answered. -/
  serving : (∀ path, p.listener ≠ .posting path) → p.mMainTasks.posting .jiraListener = .outside ∧
    webhooks (posted (queueEvents es)) = answered es
  posting : ∀ path, p.listener = .posting path →
    (p.mMainTasks.posting .jiraListener).task = some (.jiraWebhook path) ∧
        webhooks (posted (queueEvents es)) = answered es ∨
      (p.mMainTasks.posting .jiraListener).task = none ∧
        webhooks (posted (queueEvents es)) = answered es ++ [path]
  joined : p.main = .joiningMonitor ∨ p.main = .returned → p.listener = .ended

theorem coherent_start : Coherent [] {} where
  main := rfl
  drains _ := rfl
  monitor _ h := by cases h
  serving _ := ⟨rfl, rfl⟩
  posting _ h := by cases h
  joined h := by rcases h with h | h <;> cases h

section
variable {es : List ProcessEvent} {p : Process}

theorem Coherent.call {q : TaskQueue Thread Task} {es' : List (Event Task)} (h : Coherent es p)
    (hstep : Queue.Step .main p.mMainTasks es' q) (hcall : InCall p.mMainTasks q) :
    Coherent (es ++ es'.map .queue) {p with mMainTasks := q} := by
  have hq : queueEvents (es ++ es'.map .queue) = queueEvents es ++ es' := by
    rw [queueEvents_append, queueEvents_call]
  have ha : answered (es ++ es'.map .queue) = answered es := by
    rw [answered_append, answered_call, List.append_nil]
  have hposts := call_posts hstep hcall
  constructor
  · exact hcall.posting _ h.main
  · exact fun hmain => hcall.running.mpr (h.drains hmain)
  · intro task htask
    rcases hposts with ⟨t, task', -, -, hdone, hothers⟩ | ⟨-, hsame⟩
    · by_cases ht : Thread.monitorMemSizeWorker = t
      · rw [ht] at htask
        rw [hdone] at htask
        cases htask
      · rw [hothers _ ht] at htask
        exact h.monitor task htask
    · rw [hsame] at htask
      exact h.monitor task htask
  · intro hlistener
    obtain ⟨hout, hweb⟩ := h.serving hlistener
    refine ⟨hcall.posting _ hout, ?_⟩
    rw [hq, ha, posted_append, webhooks_append, hweb]
    rcases hposts with ⟨t, task, hes, htask, -⟩ | ⟨hes, -⟩
    · cases t with
      | main =>
        rw [h.main] at htask
        cases htask
      | jiraListener =>
        rw [hout] at htask
        cases htask
      | monitorMemSizeWorker =>
        rw [hes, h.monitor task htask]
        exact List.append_nil _
    · rw [hes]
      exact List.append_nil _
  · intro path hpath
    rw [hq, ha, posted_append, webhooks_append]
    rcases hposts with ⟨t, task, hes, htask, hdone, hothers⟩ | ⟨hes, hsame⟩
    · cases t with
      | main =>
        rw [h.main] at htask
        cases htask
      | jiraListener =>
        rcases h.posting path hpath with ⟨hmine, hweb⟩ | ⟨hnone, -⟩
        · rw [hmine] at htask
          obtain rfl := Option.some.inj htask
          rw [hes, hweb]
          exact .inr ⟨hdone, rfl⟩
        · rw [hnone] at htask
          cases htask
      | monitorMemSizeWorker =>
        have hmine := hothers .jiraListener (by decide)
        have hnil : webhooks [task] = [] := by
          rw [h.monitor task htask]
          rfl
        rw [hes, hnil, List.append_nil, hmine]
        exact h.posting path hpath
    · rw [hes, hsame]
      rw [show webhooks ([] : List Task) = [] from rfl, List.append_nil]
      exact h.posting path hpath
  · exact h.joined

/-- Events that are neither posts nor answers. -/
theorem Coherent.quiet {es' : List ProcessEvent} (h : Coherent es p) (hposted : posted (queueEvents es') = [])
    (hanswered : answered es' = []) : Coherent (es ++ es') p := by
  have hweb : webhooks (posted (queueEvents (es ++ es'))) = webhooks (posted (queueEvents es)) := by
    rw [queueEvents_append, posted_append, hposted, List.append_nil]
  have hans : answered (es ++ es') = answered es := by rw [answered_append, hanswered, List.append_nil]
  refine ⟨h.main, h.drains, h.monitor, ?_, ?_, h.joined⟩
  · rw [hweb, hans]
    exact h.serving
  · rw [hweb, hans]
    exact h.posting

/-- The main thread goes on. -/
theorem Coherent.mains {m : MainAt} {r : Running Task} {stop : Bool} (h : Coherent es p)
    (hrun : (∀ last, m ≠ .draining last) → r = .outside)
    (hjoined : m = .joiningMonitor ∨ m = .returned → p.listener = .ended) :
    Coherent es {p with main := m, stopRequested := stop, mMainTasks := {p.mMainTasks with running := r}} :=
  ⟨h.main, hrun, h.monitor, h.serving, h.posting, hjoined⟩

/-- The listener goes on, without a post. -/
theorem Coherent.listens {l : ListenerAt} (h : Coherent es p) (hbefore : ∀ path, p.listener ≠ .posting path)
    (hafter : ∀ path, l ≠ .posting path) (hended : p.listener ≠ .ended) :
    Coherent es {p with listener := l} :=
  ⟨h.main, h.drains, h.monitor, fun _ => h.serving hbefore, fun path hpath => absurd hpath (hafter path),
    fun hjoined => absurd (h.joined hjoined) hended⟩

theorem Coherent.post {path : Text} (h : Coherent es p) (hl : p.listener = .accepted path) :
    Coherent es {p with
      listener := .posting path
      mMainTasks := p.mMainTasks.setPosting .jiraListener (.locking (.jiraWebhook path))} := by
  obtain ⟨-, hweb⟩ := h.serving (by simp [hl])
  refine ⟨?_, h.drains, ?_, fun hno => absurd rfl (hno path), ?_, ?_⟩
  · show (p.mMainTasks.setPosting ..).posting .main = .outside
    rw [setPosting_ne _ (by decide)]
    exact h.main
  · intro task htask
    rw [setPosting_ne _ (by decide)] at htask
    exact h.monitor task htask
  · intro path' hpath
    cases hpath
    rw [setPosting_self]
    exact .inl ⟨rfl, hweb⟩
  · intro hjoined
    have hended := h.joined hjoined
    rw [hl] at hended
    cases hended

theorem Coherent.answer {path : Text} (h : Coherent es p) (hl : p.listener = .posting path)
    (hout : p.mMainTasks.posting .jiraListener = .outside) :
    Coherent (es ++ [.answered path]) {p with listener := .serving} := by
  have hweb : webhooks (posted (queueEvents es)) = answered es ++ [path] := by
    rcases h.posting path hl with ⟨hmine, -⟩ | ⟨-, hweb⟩
    · rw [hout] at hmine
      cases hmine
    · exact hweb
  refine ⟨h.main, h.drains, h.monitor, fun _ => ⟨hout, ?_⟩, fun _ hpath => (by cases hpath), ?_⟩
  · rw [queueEvents_append, posted_append, webhooks_append, hweb, answered_append]
    exact List.append_nil _
  · intro hjoined
    have hended := h.joined hjoined
    rw [hl] at hended
    cases hended

theorem Coherent.report (h : Coherent es p) {m : MonitorAt} :
    Coherent es {p with
      monitor := m
      mMainTasks := p.mMainTasks.setPosting .monitorMemSizeWorker (.locking .qtBgWorker)} := by
  have hlistener : (p.mMainTasks.setPosting .monitorMemSizeWorker (.locking .qtBgWorker)).posting .jiraListener =
      p.mMainTasks.posting .jiraListener := setPosting_ne _ (by decide)
  refine ⟨?_, h.drains, ?_, ?_, ?_, h.joined⟩
  · show (p.mMainTasks.setPosting ..).posting .main = .outside
    rw [setPosting_ne _ (by decide)]
    exact h.main
  · intro task htask
    rw [setPosting_self] at htask
    exact (Option.some.inj htask).symm
  · rw [hlistener]
    exact h.serving
  · rw [hlistener]
    exact h.posting

theorem Coherent.step {p' : Process} {es' : List ProcessEvent} (h : Coherent es p)
    (hs : Process.Step p es' p') : Coherent (es ++ es') p' := by
  cases hs with
  | signal => exact (h.quiet rfl rfl).mains h.drains h.joined
  | call hstep hcall => exact h.call hstep hcall
  | disabled hl | listen hl =>
    exact (h.quiet rfl rfl).listens (by simp [hl]) (by simp) (by simp [hl])
  | accept hl => exact (h.quiet rfl rfl).listens (by simp [hl]) (by simp) (by simp [hl])
  | stopCheck hl => exact (h.quiet rfl rfl).listens (by simp [hl]) (by simp) (by simp [hl])
  | reject => exact h.quiet rfl rfl
  | post hl hout => exact (h.quiet rfl rfl).post hl
  | answer hl hout => exact h.answer hl hout
  | report => exact (h.quiet rfl rfl).report
  | reported | wake =>
    obtain ⟨hmain, hdrains, hmonitor, hserving, hposting, hjoined⟩ := @Coherent.quiet _ _ [] h rfl rfl
    exact ⟨hmain, hdrains, hmonitor, hserving, hposting, hjoined⟩
  | enter hm => exact (h.quiet rfl rfl).mains (fun _ => h.drains (by simp [hm])) (by simp)
  | fail hm => exact (h.quiet rfl rfl).mains (fun _ => h.drains (by simp [hm])) (by simp)
  | drain => exact (h.quiet rfl rfl).mains (fun hno => absurd rfl (hno _)) (by simp)
  | @drained last =>
    refine (h.quiet rfl rfl).mains (fun _ => rfl) ?_
    cases last <;> simp
  | threw => exact (h.quiet rfl rfl).mains (fun _ => rfl) (by simp)
  | polled hm => exact (h.quiet rfl rfl).mains (fun _ => h.drains (by simp [hm])) (by simp)
  | requestStop hm => exact (h.quiet rfl rfl).mains (fun _ => h.drains (by simp [hm])) (by simp)
  | joinListener hm hended =>
    exact (h.quiet rfl rfl).mains (fun _ => h.drains (by simp [hm])) fun _ => hended
  | joinMonitor hm =>
    exact (h.quiet rfl rfl).mains (fun _ => h.drains (by simp [hm])) fun _ => h.joined (.inl hm)

/-- **What becomes of the webhooks answered "Queued"**: where no task throws, all of them have been
started when `main` returns, if and only if none was queued since the last swap. -/
theorem acknowledged_iff (hrun : Runs Process.Step {} es p) (hcalm : .queue .threw ∉ es)
    (hreturned : p.main = .returned) :
    webhooks (started (queueEvents es)) = answered es ↔
      webhooks (posted (sinceSwap (queueEvents es))) = [] := by
  have hcoherent : Coherent es p := hrun.invariant coherent_start fun _ _ _ _ h hs => h.step hs
  obtain ⟨-, hread⟩ := reads_of_runs (queue_run hrun)
  have hthrew : .threw ∉ queueEvents es := by
    intro hmem
    obtain ⟨e, he, hqueue⟩ := List.mem_filterMap.mp hmem
    cases e with
    | queue e =>
      obtain rfl := Option.some.inj hqueue
      exact hcalm he
    | _ => cases hqueue
  have hended := hcoherent.joined (.inr hreturned)
  have hanswered := (hcoherent.serving (by simp [hended])).2
  have hrunning := hcoherent.drains (by simp [hreturned])
  have hleft : p.mMainTasks.abstract.left = [] := by
    rw [TaskQueue.abstract, hrunning]
    rfl
  rw [posted_eq hread hthrew, hleft, List.append_nil, waiting_eq hread, webhooks_append] at hanswered
  rw [← hanswered]
  exact ⟨fun h => List.append_right_eq_self.mp h.symm, fun h => by rw [h, List.append_nil]⟩

end

/-! ### Two shutdowns -/

section
variable {q : TaskQueue Thread Task} {t : Thread} {x : Posting Task} {r : Running Task} {m : Option Thread}
  {tasks : List Task}

theorem inCall_posting (h : q.posting t ≠ .outside) :
    InCall q {q.setPosting t x with mMutex := m, mTasks := tasks} := by
  constructor
  · intro u hu
    show (q.setPosting t x).posting u = .outside
    have hut : u ≠ t := by
      rintro rfl
      exact h hu
    rw [setPosting_ne x hut]
    exact hu
  · exact Iff.rfl

theorem inCall_running (h : q.running ≠ .outside) (h' : r ≠ .outside) :
    InCall q {q with running := r, mMutex := m, mTasks := tasks} :=
  ⟨fun _ hu => hu, fun hr => absurd hr h', fun hr => absurd hr h⟩

end

section
variable {es : List ProcessEvent} {s p : Process} {t : Thread} {task : Task}

/-- A thread that begins to post while nobody holds the mutex can go through. -/
theorem posts_run (hrun : Runs Process.Step s es p) (h : p.mMainTasks.posting t = .locking task)
    (hfree : p.mMainTasks.mMutex = none) :
    Runs Process.Step s (es ++ [.queue (.posted task)]) {p with
      mMainTasks := {p.mMainTasks.setPosting t .outside with mTasks := p.mMainTasks.mTasks ++ [task]}} := by
  have hat {q : TaskQueue Thread Task} {x : Posting Task} (hx : x ≠ .outside) : (q.setPosting t x).posting t ≠ .outside := by
    rw [setPosting_self]
    exact hx
  have hlocked := hrun.step (.call (.lock h hfree) (inCall_posting (by simp [h])))
  have hread := hlocked.step (.call (.read (t := t) (setPosting_self _)) (inCall_posting (hat (by simp))))
  have hpushed := hread.step (.call (.push (t := t) (setPosting_self _)) (inCall_posting (hat (by simp))))
  have hdone := hpushed.step (.call (.unlock (t := t) (setPosting_self _)) (inCall_posting (hat (by simp))))
  simpa [TaskQueue.setPosting, hfree] using hdone

/-- `run_pending` takes what is there while nobody holds the mutex. -/
theorem swaps_run (hrun : Runs Process.Step s es p) (h : p.mMainTasks.running = .locking)
    (hfree : p.mMainTasks.mMutex = none) :
    Runs Process.Step s (es ++ [.queue .swapped]) {p with
      mMainTasks := {p.mMainTasks with
        running := .next p.mMainTasks.mTasks p.mMainTasks.mTasks.length, mTasks := []}} := by
  have hlocked := hrun.step (.call (.lockRun h hfree) (inCall_running (by simp [h]) (by simp)))
  have hread := hlocked.step (.call (.readRun rfl) (inCall_running (by simp) (by simp)))
  have hswapped := hread.step (.call (.swap rfl) (inCall_running (by simp) (by simp)))
  have hdone := hswapped.step (.call (.unlockRun rfl) (inCall_running (by simp) (by simp)))
  simpa [hfree] using hdone

/-- The listener posts a webhook, and answers. -/
theorem queues_run {path : Text} (hrun : Runs Process.Step s es p) (hl : p.listener = .serving)
    (hout : p.mMainTasks.posting .jiraListener = .outside) (hfree : p.mMainTasks.mMutex = none) :
    Runs Process.Step s (es ++ [.queue (.posted (.jiraWebhook path)), .answered path]) {p with
      mMainTasks := {p.mMainTasks.setPosting .jiraListener .outside with
        mTasks := p.mMainTasks.mTasks ++ [.jiraWebhook path]}} := by
  have haccepted := hrun.step (@Process.Step.accept _ path hl) |>.step (.post rfl hout)
  have hposted := posts_run haccepted (setPosting_self _) hfree
  have hdone := hposted.step (.answer rfl rfl)
  simpa [TaskQueue.setPosting, hl] using hdone

/-- The main thread returns: the listener is joined, then the monitor, after its report. -/
theorem returns_run (hrun : Runs Process.Step s es p) (hm : p.main = .leaving) (hl : p.listener = .serving)
    (hmonitor : p.monitor = .due) (hout : p.mMainTasks.posting .monitorMemSizeWorker = .outside)
    (hfree : p.mMainTasks.mMutex = none) :
    ∃ p', p'.main = .returned ∧ Runs Process.Step s (es ++ [.queue (.posted .qtBgWorker)]) p' := by
  have hjoined := hrun.step (.requestStop hm) |>.step (.stopCheck hl rfl) |>.step (.joinListener rfl rfl)
  have hreported := posts_run (hjoined.step (.report hmonitor hout)) (setPosting_self _) hfree
  have hdone := hreported.step (.reported rfl rfl) |>.step (.wake rfl) |>.step (.joinMonitor rfl rfl)
  simp only [List.append_nil] at hdone
  exact ⟨_, rfl, hdone⟩

end

theorem serving_run : Runs Process.Step {} [] {main := .looping, listener := .serving} := by
  have hstart : Runs Process.Step {} [] {} := .start
  exact hstart.step (.enter rfl) |>.step (.listen rfl)

/-- A webhook is queued while the main thread polls, and the stop is requested afterwards. -/
def queuedInTime : List ProcessEvent :=
  [ .queue (.posted (.jiraWebhook (of "/UPD/A-1"))), .answered (of "/UPD/A-1"), .queue .swapped,
    .queue (.started (.jiraWebhook (of "/UPD/A-1"))), .queue (.returned 1), .queue (.posted .qtBgWorker) ]

theorem queuedInTime_run : ∃ p, p.main = .returned ∧ Runs Process.Step {} queuedInTime p := by
  have hqueued := @queues_run _ _ _ (of "/UPD/A-1") serving_run rfl rfl rfl
  have hswapped := swaps_run (hqueued.step .signal |>.step (.drain rfl rfl rfl)) rfl rfl
  have hdrained := hswapped.step (.call (.start rfl) (inCall_running (by decide) (by decide)))
    |>.step (.call (.finish rfl rfl) (inCall_running (by decide) (by decide)))
    |>.step (.drained rfl rfl)
  exact returns_run hdrained rfl rfl rfl rfl rfl

theorem acknowledged_iff_in_time :
    webhooks (started (queueEvents queuedInTime)) = answered queuedInTime := by
  obtain ⟨p, hreturned, hrun⟩ := queuedInTime_run
  exact (acknowledged_iff hrun (by decide) hreturned).mpr rfl

/-- The main thread has run what was pending, and does not yet wait for the listener. -/
def queuedTooLate : List ProcessEvent :=
  [ .queue .swapped, .queue (.returned 0), .queue (.posted (.jiraWebhook (of "/UPD/A-1"))),
    .answered (of "/UPD/A-1"), .queue (.posted .qtBgWorker) ]

/-- The webhook is answered "Queued" and never run. -/
theorem webhook_lost : (∃ p, p.main = .returned ∧ Runs Process.Step {} queuedTooLate p) ∧
    answered queuedTooLate = [of "/UPD/A-1"] ∧ started (queueEvents queuedTooLate) = [] := by
  have hswapped := swaps_run (serving_run.step .signal |>.step (.drain rfl rfl rfl)) rfl rfl
  have hqueued := @queues_run _ _ _ (of "/UPD/A-1") (hswapped.step (.drained rfl rfl)) rfl rfl rfl
  refine ⟨returns_run hqueued rfl rfl rfl rfl rfl, ?_, ?_⟩
  · decide
  · decide

end Chanserv.Queue
