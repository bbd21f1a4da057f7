import Mathlib.Logic.Relation
import Chanserv.Queue.Shutdown

/-! How the monitor learns of the stop.

The monitor takes `stop_mutex` at its start and holds it but for its waits on the
condition variable, before and after which it looks at the stop flag. `main` sets the
flag, locks and unlocks the mutex, and notifies: after that the monitor does not wait,
whether the flag was set by a signal or here. The machine is the process of the
shutdown (`Process`) with the mutex and the condition variable in it. -/
namespace Chanserv.Queue
open Program

/-- Where the monitor is with `stop_mutex`. -/
inductive MonitorLock where
  | locking
  | holding
  /-- The predicate of `wait_for`, after a wait that `timedOut`, or at another time. -/
  | checking (timedOut : Bool)
  /-- The predicate was false, and the mutex is still held. -/
  | entering
  /-- On the condition variable, the mutex released. -/
  | blocked
  | relocking (timedOut : Bool)
  | leaving
  | released
deriving DecidableEq

/-- Where `main` is after `bot_start`. -/
inductive Closing where
  | before
  | locking
  | holding
  | unlocked
  | notified
deriving DecidableEq

def MonitorLock.holds : MonitorLock → Bool
  | .holding | .checking _ | .entering | .leaving => true
  | _ => false

/-- From `request_stop` on. -/
def MainAt.closing : MainAt → Bool
  | .joiningListener | .joiningMonitor | .returned => true
  | _ => false

structure Stopping where
  process : Process := {}
  stopMutex : Option Thread := none
  monitorAt : MonitorLock := .locking
  mainAt : Closing := .before

inductive Stopping.Step : Stopping → List ProcessEvent → Stopping → Prop
  /-- All but the loop of the monitor and the end of `main`. -/
  | process {s : Stopping} {es : List ProcessEvent} {p : Process} (h : Process.Step s.process es p)
    (hmonitor : p.monitor = s.process.monitor) (hmain : p.main = s.process.main ∨ p.main.closing = false) :
    Step s es {s with process := p}
  -- the monitor
  | lock {s : Stopping} (h : s.monitorAt = .locking) (hfree : s.stopMutex = none) :
    Step s [] {s with monitorAt := .holding, stopMutex := some .monitorMemSizeWorker}
  | report {s : Stopping} (h : s.monitorAt = .holding) (hdue : s.process.monitor = .due)
    (hout : s.process.mMainTasks.posting .monitorMemSizeWorker = .outside) :
    Step s [] {s with process := {s.process with
      monitor := .posting
      mMainTasks := s.process.mMainTasks.setPosting .monitorMemSizeWorker (.locking .qtBgWorker)}}
  | reported {s : Stopping} (h : s.monitorAt = .holding) (hposting : s.process.monitor = .posting)
    (hout : s.process.mMainTasks.posting .monitorMemSizeWorker = .outside) :
    Step s [] {s with process := {s.process with monitor := .waiting}, monitorAt := .checking false}
  | enter {s : Stopping} (h : s.monitorAt = .checking false) (hstop : s.process.stopRequested = false) :
    Step s [] {s with monitorAt := .entering}
  /-- The mutex is released and the wait begins in one step. -/
  | block {s : Stopping} (h : s.monitorAt = .entering) :
    Step s [] {s with monitorAt := .blocked, stopMutex := none}
  /-- Four hours are over, or the wait ends for no reason. -/
  | wake {s : Stopping} (timedOut : Bool) (h : s.monitorAt = .blocked) :
    Step s [] {s with monitorAt := .relocking timedOut}
  | relock {s : Stopping} {timedOut : Bool} (h : s.monitorAt = .relocking timedOut) (hfree : s.stopMutex = none) :
    Step s [] {s with monitorAt := .checking timedOut, stopMutex := some .monitorMemSizeWorker}
  | again {s : Stopping} (h : s.monitorAt = .checking true) (hwaiting : s.process.monitor = .waiting)
    (hstop : s.process.stopRequested = false) :
    Step s [] {s with process := {s.process with monitor := .due}, monitorAt := .holding}
  | leave {s : Stopping} {timedOut : Bool} (h : s.monitorAt = .checking timedOut)
    (hwaiting : s.process.monitor = .waiting) (hstop : s.process.stopRequested = true) :
    Step s [] {s with process := {s.process with monitor := .ended}, monitorAt := .leaving}
  | unlock {s : Stopping} (h : s.monitorAt = .leaving) :
    Step s [] {s with monitorAt := .released, stopMutex := none}
  -- the main thread
  | requestStop {s : Stopping} (h : s.process.main = .leaving) :
    Step s [] {s with
      process := {s.process with main := .joiningListener, stopRequested := true}, mainAt := .locking}
  | lockMain {s : Stopping} (h : s.mainAt = .locking) (hfree : s.stopMutex = none) :
    Step s [] {s with mainAt := .holding, stopMutex := some .main}
  | unlockMain {s : Stopping} (h : s.mainAt = .holding) :
    Step s [] {s with mainAt := .unlocked, stopMutex := none}
  | notifyAll {s : Stopping} (h : s.mainAt = .unlocked) :
    Step s [] {s with
      mainAt := .notified
      monitorAt := if s.monitorAt = .blocked then .relocking false else s.monitorAt}
  | joinListener {s : Stopping} (h : s.mainAt = .notified) (hmain : s.process.main = .joiningListener)
    (hended : s.process.listener = .ended) :
    Step s [] {s with process := {s.process with main := .joiningMonitor}}
  | joinMonitor {s : Stopping} (h : s.monitorAt = .released) (hmain : s.process.main = .joiningMonitor)
    (hended : s.process.monitor = .ended) :
    Step s [] {s with process := {s.process with main := .returned}}

/-! ### It is the process of the shutdown -/

section
variable {s s' : Stopping} {es : List ProcessEvent}

/-- Each step is one of the process, or leaves it alone. -/
theorem Stopping.Step.process_step (h : Stopping.Step s es s') :
    Process.Step s.process es s'.process ∨ es = [] ∧ s'.process = s.process := by
  cases h with
  | process h => exact .inl h
  | report h hdue hout => exact .inl (.report hdue hout)
  | reported h hposting hout => exact .inl (.reported hposting hout)
  | again h hwaiting hstop =>
    have hwake := Process.Step.wake hwaiting
    rw [if_neg (by simp [hstop])] at hwake
    exact .inl hwake
  | leave h hwaiting hstop =>
    have hwake := Process.Step.wake hwaiting
    rw [if_pos hstop] at hwake
    exact .inl hwake
  | requestStop h => exact .inl (.requestStop h)
  | joinListener h hmain hended => exact .inl (.joinListener hmain hended)
  | joinMonitor h hmain hended => exact .inl (.joinMonitor hmain hended)
  | _ => exact .inr ⟨rfl, rfl⟩

theorem process_run (hrun : Runs Stopping.Step {} es s) : Runs Process.Step {} es s.process := by
  have hpart : Runs Process.Step {} (es.filterMap some) s.process := hrun.part fun s es s' hs => by
    rw [List.filterMap_some]
    exact hs.process_step
  rwa [List.filterMap_some] at hpart

end

/-! ### What the mutex and the flag give -/

/-- Who holds the mutex, and how far the monitor can be at each place of `main`. -/
structure Orderly (s : Stopping) : Prop where
  monitor : s.monitorAt.holds ↔ s.stopMutex = some .monitorMemSizeWorker
  main : s.mainAt = .holding ↔ s.stopMutex = some .main
  listener : s.stopMutex ≠ some .jiraListener
  closing : s.process.main.closing ↔ s.mainAt ≠ .before
  requested : s.mainAt ≠ .before → s.process.stopRequested = true
  /-- The monitor looked at the flag before it was set, and waits already, or looks at it afterwards. -/
  looked : s.mainAt = .unlocked ∨ s.mainAt = .notified → s.monitorAt ≠ .entering
  notified : s.mainAt = .notified → s.monitorAt ≠ .blocked
  /-- The monitor posts between two waits. -/
  posts : s.monitorAt ≠ .holding → s.process.mMainTasks.posting .monitorMemSizeWorker = .outside

theorem orderly_start : Orderly {} where
  monitor := by simp [MonitorLock.holds]
  main := by simp
  listener := by simp
  closing := by simp [MainAt.closing]
  requested h := absurd rfl h
  looked h := by rcases h with h | h <;> cases h
  notified h := by cases h
  posts _ := rfl

section
variable {s s' : Stopping} {es : List ProcessEvent} {p p' : Process}

/-- No step of another thread makes the monitor post, and none takes the flag back. -/
theorem process_step_monitor (h : Process.Step p es p') (hmonitor : p'.monitor = p.monitor) :
    (p.mMainTasks.posting .monitorMemSizeWorker = .outside →
        p'.mMainTasks.posting .monitorMemSizeWorker = .outside) ∧
      (p.stopRequested = true → p'.stopRequested = true) := by
  cases h with
  | call hstep hcall => exact ⟨hcall.posting _, id⟩
  | post hl hout =>
    refine ⟨fun h => ?_, id⟩
    rw [setPosting_ne _ (by decide)]
    exact h
  | report hdue hout =>
    rw [hdue] at hmonitor
    cases hmonitor
  | signal | requestStop => exact ⟨id, fun _ => rfl⟩
  | _ => exact ⟨id, id⟩

/-- `main` goes on to its end only by the steps of its end. -/
theorem closing_of_step (h : Process.Step p es p') (hmain : p'.main = p.main ∨ p'.main.closing = false) :
    p'.main.closing = p.main.closing := by
  cases h with
  | requestStop h | joinListener h | joinMonitor h =>
    rcases hmain with hmain | hmain
    · exact congrArg MainAt.closing hmain
    · cases hmain
  | enter h | fail h | drain h | threw h | polled h =>
    rw [h]
    rfl
  | @drained last _ h =>
    rw [h]
    cases last <;> rfl
  | _ => rfl

/-- A step of the monitor at one place of `main`. -/
theorem Orderly.monitors {at' : MonitorLock} {m : MonitorAt} {q : TaskQueue Thread Task} {mutex : Option Thread}
    (h : Orderly s) (hmutex : mutex = s.stopMutex ∨ mutex ≠ some .main ∧ s.stopMutex ≠ some .main)
    (hholds : at'.holds ↔ mutex = some .monitorMemSizeWorker) (hlistener : mutex ≠ some .jiraListener)
    (hlooked : at' = .entering → s.process.stopRequested = false)
    (hblocked : at' = .blocked → s.monitorAt = .entering)
    (hposts : at' ≠ .holding → q.posting .monitorMemSizeWorker = .outside) :
    Orderly {s with
      process := {s.process with monitor := m, mMainTasks := q}, monitorAt := at', stopMutex := mutex} := by
  constructor
  · exact hholds
  · rw [h.main]
    rcases hmutex with rfl | ⟨hno, hno'⟩
    · exact Iff.rfl
    · exact iff_of_false hno' hno
  · exact hlistener
  · exact h.closing
  · exact h.requested
  · intro hmain hentering
    change s.mainAt = .unlocked ∨ s.mainAt = .notified at hmain
    have hstop := hlooked hentering
    rw [h.requested (by rcases hmain with hmain | hmain <;> simp [hmain])] at hstop
    cases hstop
  · intro hmain hblock
    exact h.looked (.inr hmain) (hblocked hblock)
  · exact hposts

/-- The monitor keeps the mutex, or goes on without it. -/
theorem Orderly.monitor_keeps {at' : MonitorLock} {m : MonitorAt} {q : TaskQueue Thread Task} (h : Orderly s)
    (hholds : at'.holds = s.monitorAt.holds) (hlooked : at' = .entering → s.process.stopRequested = false)
    (hblocked : at' ≠ .blocked) (hposts : at' ≠ .holding → q.posting .monitorMemSizeWorker = .outside) :
    Orderly {s with process := {s.process with monitor := m, mMainTasks := q}, monitorAt := at'} := by
  apply h.monitors (.inl rfl) ?_ h.listener hlooked (fun hat => absurd hat hblocked) hposts
  rw [hholds]
  exact h.monitor

/-- The monitor takes the free mutex. -/
theorem Orderly.monitor_locks {at' : MonitorLock} (h : Orderly s) (hfree : s.stopMutex = none)
    (hat : s.monitorAt ≠ .holding) (hholds : at'.holds) (hentering : at' ≠ .entering) :
    Orderly {s with monitorAt := at', stopMutex := some .monitorMemSizeWorker} := by
  apply h.monitors
  · exact .inr ⟨by simp, by simp [hfree]⟩
  · simp [hholds]
  · simp
  · exact fun hat => absurd hat hentering
  · rintro rfl
    cases hholds
  · exact fun _ => h.posts hat

/-- The monitor releases the mutex. -/
theorem Orderly.monitor_unlocks {at' : MonitorLock} (h : Orderly s) (hheld : s.monitorAt.holds)
    (hat : s.monitorAt ≠ .holding) (hholds : at'.holds = false) (hblocked : at' = .blocked → s.monitorAt = .entering) :
    Orderly {s with monitorAt := at', stopMutex := none} := by
  apply h.monitors
  · exact .inr ⟨by simp, by simp [h.monitor.mp hheld]⟩
  · simp [hholds]
  · simp
  · rintro rfl
    cases hholds
  · exact hblocked
  · exact fun _ => h.posts hat

theorem Orderly.not_holding (h : Orderly s) (hother : s.stopMutex ≠ some .monitorMemSizeWorker) :
    s.monitorAt.holds = false := by
  rw [Bool.eq_false_iff, Ne, h.monitor]
  exact hother

/-- A step of `main` between its request and its joins. -/
theorem Orderly.closes {at' : MonitorLock} {m : Closing} {mutex : Option Thread} (h : Orderly s)
    (hfrom : s.mainAt ≠ .before) (hto : m ≠ .before) (hmonitor : at'.holds ↔ mutex = some .monitorMemSizeWorker)
    (hmain : m = .holding ↔ mutex = some .main) (hlistener : mutex ≠ some .jiraListener)
    (hlooked : m = .unlocked ∨ m = .notified → at' ≠ .entering) (hnotified : m = .notified → at' ≠ .blocked)
    (hposts : at' ≠ .holding → s.monitorAt ≠ .holding) :
    Orderly {s with mainAt := m, monitorAt := at', stopMutex := mutex} where
  monitor := hmonitor
  main := hmain
  listener := hlistener
  closing := h.closing.trans (iff_of_true hfrom hto)
  requested _ := h.requested hfrom
  looked := hlooked
  notified := hnotified
  posts hat := h.posts (hposts hat)

/-- `main` asks for the stop. -/
theorem Orderly.requests (h : Orderly s) (hm : s.process.main = .leaving) :
    Orderly {s with
      process := {s.process with main := .joiningListener, stopRequested := true}, mainAt := .locking} := by
  have hbefore : s.mainAt = .before := by
    by_contra hne
    have hclosing := h.closing.mpr hne
    rw [hm] at hclosing
    cases hclosing
  refine ⟨h.monitor, ?_, h.listener, by simp [MainAt.closing], fun _ => rfl, by simp, by simp, h.posts⟩
  rw [← h.main, hbefore]
  simp

theorem Orderly.main_locks (h : Orderly s) (hm : s.mainAt = .locking) (hfree : s.stopMutex = none) :
    Orderly {s with mainAt := .holding, stopMutex := some .main} := by
  have hholds := h.not_holding (by simp [hfree])
  apply h.closes (by simp [hm])
  · simp
  · simp [hholds]
  · simp
  · simp
  · simp
  · simp
  · exact id

theorem Orderly.main_unlocks (h : Orderly s) (hm : s.mainAt = .holding) :
    Orderly {s with mainAt := .unlocked, stopMutex := none} := by
  have hholds := h.not_holding (by simp [h.main.mp hm])
  apply h.closes (by simp [hm])
  · simp
  · simp [hholds]
  · simp
  · simp
  · intro _ hentering
    rw [hentering] at hholds
    cases hholds
  · simp
  · exact id

/-- `main` notifies, and a monitor that waited goes for the mutex. -/
theorem Orderly.notifies (h : Orderly s) (hm : s.mainAt = .unlocked) :
    Orderly {s with
      mainAt := .notified
      monitorAt := if s.monitorAt = .blocked then .relocking false else s.monitorAt} := by
  have hentering := h.looked (.inl hm)
  have hnotMain : s.stopMutex ≠ some .main := by
    rw [Ne, ← h.main, hm]
    simp
  by_cases hblocked : s.monitorAt = .blocked
  · have hfree : s.stopMutex ≠ some .monitorMemSizeWorker := by
      rw [Ne, ← h.monitor, hblocked]
      simp [MonitorLock.holds]
    rw [if_pos hblocked]
    apply h.closes (by simp [hm]) (by simp) ?_ ?_ h.listener
    · simp
    · simp
    · simp [hblocked]
    · simpa [MonitorLock.holds] using hfree
    · simpa using hnotMain
  · rw [if_neg hblocked]
    apply h.closes (by simp [hm]) (by simp) h.monitor ?_ h.listener
    · exact fun _ => hentering
    · exact fun _ => hblocked
    · exact id
    · simpa using hnotMain

/-- A step of the other threads, or of `main` before it closes. -/
theorem Orderly.others (h : Orderly s) (hstep : Process.Step s.process es p)
    (hmonitor : p.monitor = s.process.monitor) (hmain : p.main = s.process.main ∨ p.main.closing = false) :
    Orderly {s with process := p} := by
  obtain ⟨hposts, hstop⟩ := process_step_monitor hstep hmonitor
  refine ⟨h.monitor, h.main, h.listener, ?_, fun hm => hstop (h.requested hm), h.looked, h.notified,
    fun hm => hposts (h.posts hm)⟩
  show p.main.closing ↔ s.mainAt ≠ .before
  rw [closing_of_step hstep hmain]
  exact h.closing

theorem Orderly.step (h : Orderly s) (hs : Stopping.Step s es s') : Orderly s' := by
  cases hs with
  | process hstep hmonitor hmain => exact h.others hstep hmonitor hmain
  -- the monitor
  | lock hat hfree | relock hat hfree => exact h.monitor_locks hfree (by simp [hat]) rfl (by simp)
  | report hat => exact h.monitor_keeps rfl (by simp [hat]) (by simp [hat]) (by simp [hat])
  | reported hat _ hout => exact h.monitor_keeps (by rw [hat]; rfl) (by simp) (by simp) fun _ => hout
  | enter hat hstop =>
    exact h.monitor_keeps (by rw [hat]; rfl) (fun _ => hstop) (by simp) fun _ => h.posts (by simp [hat])
  | block hat => exact h.monitor_unlocks (by rw [hat]; rfl) (by simp [hat]) rfl fun _ => hat
  | wake _ hat | again hat | leave hat =>
    exact h.monitor_keeps (by rw [hat]; rfl) (by simp) (by simp) fun _ => h.posts (by simp [hat])
  | unlock hat => exact h.monitor_unlocks (by rw [hat]; rfl) (by simp [hat]) rfl (by simp)
  -- the main thread
  | requestStop hm => exact h.requests hm
  | lockMain hm hfree => exact h.main_locks hm hfree
  | unlockMain hm => exact h.main_unlocks hm
  | notifyAll hm => exact h.notifies hm
  | joinListener hm hmain =>
    refine ⟨h.monitor, h.main, h.listener, ?_, h.requested, h.looked, h.notified, h.posts⟩
    simp [MainAt.closing, hm]
  | joinMonitor _ hmain =>
    refine ⟨h.monitor, h.main, h.listener, ?_, h.requested, h.looked, h.notified, h.posts⟩
    rw [← h.closing, hmain]
    rfl

theorem orderly_run (hrun : Runs Stopping.Step {} es s) : Orderly s :=
  hrun.invariant (I := fun _ s => Orderly s) orderly_start fun _ _ _ _ h hs => h.step hs

end

/-! ### Waiting for a mutex -/

inductive Mutex where
  | stopMutex | mMutex
deriving DecidableEq

def Stopping.owner (s : Stopping) : Mutex → Option Thread
  | .stopMutex => s.stopMutex
  | .mMutex => s.process.mMainTasks.mMutex

/-- The threads at a lock. -/
inductive Stopping.Awaits (s : Stopping) : Thread → Mutex → Prop
  | monitor (h : s.monitorAt = .locking ∨ ∃ timedOut, s.monitorAt = .relocking timedOut) :
    Awaits s .monitorMemSizeWorker .stopMutex
  | main (h : s.mainAt = .locking) : Awaits s .main .stopMutex
  | post {t : Thread} {task : Task} (h : s.process.mMainTasks.posting t = .locking task) : Awaits s t .mMutex
  | runPending (h : s.process.mMainTasks.running = .locking) : Awaits s .main .mMutex

/-- One thread is at the lock of a mutex that another holds, or itself. -/
def Stopping.WaitsFor (s : Stopping) (t u : Thread) : Prop := ∃ m, s.Awaits t m ∧ s.owner m = some u

/-- The order of the locks: who holds the mutex of the queue waits for nothing, and who holds
`stop_mutex` waits for no more than that. -/
def Stopping.rank (s : Stopping) (t : Thread) : Nat :=
  if s.owner .mMutex = some t then 0 else if s.owner .stopMutex = some t then 1 else 2

section
variable {s : Stopping} {es : List ProcessEvent} {t u : Thread}

/-- Who is at the lock of the queue does not hold it. -/
theorem awaits_mMutex (hrun : Runs Stopping.Step {} es s) (h : s.Awaits t .mMutex) : s.owner .mMutex ≠ some t := by
  have hqueue := queue_run (process_run hrun)
  obtain ⟨hlocked, -⟩ := reads_of_runs hqueue
  intro howner
  have hcritical := holder_critical hqueue howner
  cases h with
  | post h =>
    rcases hcritical with hcritical | ⟨rfl, hcritical⟩
    · rw [h] at hcritical
      cases hcritical
    · rw [hlocked.main (Running.mayPost_of_critical hcritical)] at h
      cases h
  | runPending h =>
    rcases hcritical with hcritical | ⟨-, hcritical⟩
    · rw [hlocked.main (by rw [h]; rfl)] at hcritical
      cases hcritical
    · rw [h] at hcritical
      cases hcritical

/-- Who is at the lock of `stop_mutex` holds neither it nor the queue. -/
theorem awaits_stopMutex (hrun : Runs Stopping.Step {} es s) (h : s.Awaits t .stopMutex) (m : Mutex) :
    s.owner m ≠ some t := by
  have horderly := orderly_run hrun
  have hqueue := queue_run (process_run hrun)
  have hcoherent : Coherent es s.process :=
    (process_run hrun).invariant coherent_start fun _ _ _ _ h hs => h.step hs
  intro howner
  cases h with
  | monitor h =>
    have hholds : s.monitorAt.holds = false := by
      rcases h with h | ⟨timedOut, h⟩ <;> rw [h] <;> rfl
    cases m with
    | stopMutex =>
      rw [horderly.monitor.mpr howner] at hholds
      cases hholds
    | mMutex =>
      have hout := horderly.posts (by rintro hat; rw [hat] at hholds; cases hholds)
      rcases holder_critical hqueue howner with hcritical | ⟨hmain, -⟩
      · rw [hout] at hcritical
        cases hcritical
      · cases hmain
  | main h =>
    cases m with
    | stopMutex =>
      rw [horderly.main.mpr howner] at h
      cases h
    | mMutex =>
      have hclosing := horderly.closing.mpr (by simp [h])
      have hrunning := hcoherent.drains (by rintro last hdrain; rw [hdrain] at hclosing; cases hclosing)
      rcases holder_critical hqueue howner with hcritical | ⟨-, hcritical⟩
      · rw [hcoherent.main] at hcritical
        cases hcritical
      · rw [hrunning] at hcritical
        cases hcritical

theorem rank_lt (hrun : Runs Stopping.Step {} es s) (h : s.WaitsFor t u) : s.rank u < s.rank t := by
  obtain ⟨m, hawaits, howner⟩ := h
  cases m with
  | mMutex =>
    have hnot := awaits_mMutex hrun hawaits
    rw [Stopping.rank, if_pos howner, Stopping.rank, if_neg hnot]
    split <;> decide
  | stopMutex =>
    have hnot := awaits_stopMutex hrun hawaits
    have ht : s.rank t = 2 := by rw [Stopping.rank, if_neg (hnot .mMutex), if_neg (hnot .stopMutex)]
    rw [ht, Stopping.rank, if_pos howner]
    split <;> decide

/-- **Once `main` has notified, the monitor does not wait on the condition variable**, and at no time
do threads wait for each other's mutexes in a circle. -/
theorem monitor_wakes (hrun : Runs Stopping.Step {} es s) :
    (s.mainAt = .notified → s.monitorAt ≠ .blocked) ∧ ∀ t, ¬ Relation.TransGen s.WaitsFor t t := by
  refine ⟨(orderly_run hrun).notified, fun t hcircle => ?_⟩
  have hless : ∀ a b, s.WaitsFor a b → s.rank a > s.rank b := fun a b h => rank_lt hrun h
  have hranks : Relation.TransGen (· > ·) (s.rank t) (s.rank t) := Relation.TransGen.lift s.rank hless t t hcircle
  rw [Relation.transGen_eq_self] at hranks
  exact Nat.lt_irrefl _ hranks

end

/-- A thread that begins to post while nobody holds the queue's mutex can go through. -/
theorem posts_through {s₀ s : Stopping} {es : List ProcessEvent} {t : Thread} {task : Task}
    (hrun : Runs Stopping.Step s₀ es s) (h : s.process.mMainTasks.posting t = .locking task)
    (hfree : s.process.mMainTasks.mMutex = none) :
    Runs Stopping.Step s₀ (es ++ [.queue (.posted task)]) {s with process := {s.process with
      mMainTasks := {s.process.mMainTasks.setPosting t .outside with
        mTasks := s.process.mMainTasks.mTasks ++ [task]}}} := by
  have hat {q : TaskQueue Thread Task} {x : Posting Task} (hx : x ≠ .outside) : (q.setPosting t x).posting t ≠ .outside := by
    rw [setPosting_self]
    exact hx
  have hlocked := hrun.step (.process (.call (.lock h hfree) (inCall_posting (by simp [h]))) rfl (.inl rfl))
  have hread := hlocked.step
    (.process (.call (.read (t := t) (setPosting_self _)) (inCall_posting (hat (by simp)))) rfl (.inl rfl))
  have hpushed := hread.step
    (.process (.call (.push (t := t) (setPosting_self _)) (inCall_posting (hat (by simp)))) rfl (.inl rfl))
  have hdone := hpushed.step
    (.process (.call (.unlock (t := t) (setPosting_self _)) (inCall_posting (hat (by simp)))) rfl (.inl rfl))
  simpa [TaskQueue.setPosting, hfree] using hdone

/-- The monitor posts its report, waits, and is woken by `main`. -/
theorem monitor_wakes_blocked : ∃ s, Runs Stopping.Step {} [.queue (.posted .qtBgWorker)] s ∧
    s.mainAt = .notified ∧ s.monitorAt ≠ .blocked ∧ ∀ t, ¬ Relation.TransGen s.WaitsFor t t := by
  have hstart : Runs Stopping.Step {} [] {} := .start
  have hreport := hstart.step (.lock rfl rfl) |>.step (.report rfl rfl rfl)
  have hblocked := (posts_through hreport (setPosting_self _) rfl).step (.reported rfl rfl rfl)
    |>.step (.enter rfl rfl) |>.step (.block rfl)
  have hnotified := hblocked.step (.process (.fail rfl) rfl (.inr rfl)) |>.step (.requestStop rfl)
    |>.step (.lockMain rfl rfl) |>.step (.unlockMain rfl) |>.step (.notifyAll rfl)
  obtain ⟨hwakes, hcircle⟩ := monitor_wakes hnotified
  simp only [List.append_nil] at hnotified
  exact ⟨_, hnotified, rfl, hwakes rfl, hcircle⟩

end Chanserv.Queue
