import Mathlib.Data.List.DropRight
import Mathlib.Logic.Function.Basic
import Chanserv.Program.Traces

/-! The queue of tasks for the main thread, step by step.

Any thread may post, the main thread runs what is pending, and a running task may
post in turn. Nothing but the mutex keeps the threads apart: each reads the deque
and writes it back in two steps. `Locked` is what the mutex gives, and with it the
queue behaves as `Waiting`, in which posting and swapping are one step each. -/
namespace Chanserv.Queue
open Program

variable {ι τ : Type}

/-- What happens to the tasks. -/
inductive Event (τ : Type) where
  | posted (task : τ)
  | swapped
  | started (task : τ)
  | threw
  | returned (size : Nat)
deriving DecidableEq

/-- Where a thread is in `post`. -/
inductive Posting (τ : Type) where
  | outside
  | locking (task : τ)
  | reading (task : τ)
  | writing (task : τ) (seen : List τ)
  | unlocking
deriving DecidableEq

/-- Where the main thread is in `run_pending`. -/
inductive Running (τ : Type) where
  | outside
  | locking
  | reading
  | writing (seen : List τ)
  | unlocking (tasks : List τ)
  /-- Between two tasks: those left, and how many there were. -/
  | next (left : List τ) (size : Nat)
  | inTask (left : List τ) (size : Nat)
deriving DecidableEq

/-- Between the lock and its release. -/
def Posting.critical : Posting τ → Bool
  | .outside | .locking _ => false
  | _ => true

def Running.critical : Running τ → Bool
  | .reading | .writing _ | .unlocking _ => true
  | _ => false

/-- The main thread posts from a task, or when it runs none. -/
def Running.mayPost : Running τ → Bool
  | .outside | .inTask _ _ => true
  | _ => false

theorem Running.mayPost_of_critical {r : Running τ} (h : r.critical) : r.mayPost = false := by
  cases r with
  | reading | writing | unlocking => rfl
  | _ => cases h

structure TaskQueue (ι τ : Type) where
  mMutex : Option ι := none
  mTasks : List τ := []
  posting : ι → Posting τ := fun _ => .outside
  running : Running τ := .outside

section
variable [DecidableEq ι]

def TaskQueue.setPosting (q : TaskQueue ι τ) (t : ι) (p : Posting τ) : TaskQueue ι τ :=
  {q with posting := Function.update q.posting t p}

/-- The steps of all threads. The lock is taken when it is free. -/
inductive Step (main : ι) : TaskQueue ι τ → List (Event τ) → TaskQueue ι τ → Prop
  | post {q : TaskQueue ι τ} {t : ι} {task : τ} (h : q.posting t = .outside)
    (hmain : t = main → q.running.mayPost) : Step main q [] (q.setPosting t (.locking task))
  | lock {q : TaskQueue ι τ} {t : ι} {task : τ} (h : q.posting t = .locking task) (hfree : q.mMutex = none) :
    Step main q [] {q.setPosting t (.reading task) with mMutex := some t}
  | read {q : TaskQueue ι τ} {t : ι} {task : τ} (h : q.posting t = .reading task) :
    Step main q [] (q.setPosting t (.writing task q.mTasks))
  | push {q : TaskQueue ι τ} {t : ι} {task : τ} {seen : List τ} (h : q.posting t = .writing task seen) :
    Step main q [.posted task] {q.setPosting t .unlocking with mTasks := seen ++ [task]}
  | unlock {q : TaskQueue ι τ} {t : ι} (h : q.posting t = .unlocking) :
    Step main q [] {q.setPosting t .outside with mMutex := none}
  | runPending {q : TaskQueue ι τ} (h : q.running = .outside) (hpost : q.posting main = .outside) :
    Step main q [] {q with running := .locking}
  | lockRun {q : TaskQueue ι τ} (h : q.running = .locking) (hfree : q.mMutex = none) :
    Step main q [] {q with running := .reading, mMutex := some main}
  | readRun {q : TaskQueue ι τ} (h : q.running = .reading) :
    Step main q [] {q with running := .writing q.mTasks}
  | swap {q : TaskQueue ι τ} {seen : List τ} (h : q.running = .writing seen) :
    Step main q [.swapped] {q with running := .unlocking seen, mTasks := []}
  | unlockRun {q : TaskQueue ι τ} {tasks : List τ} (h : q.running = .unlocking tasks) :
    Step main q [] {q with running := .next tasks tasks.length, mMutex := none}
  | start {q : TaskQueue ι τ} {task : τ} {left : List τ} {size : Nat} (h : q.running = .next (task :: left) size) :
    Step main q [.started task] {q with running := .inTask left size}
  | finish {q : TaskQueue ι τ} {left : List τ} {size : Nat} (h : q.running = .inTask left size)
    (hpost : q.posting main = .outside) : Step main q [] {q with running := .next left size}
  | throws {q : TaskQueue ι τ} {left : List τ} {size : Nat} (h : q.running = .inTask left size)
    (hpost : q.posting main = .outside) : Step main q [.threw] {q with running := .outside}
  | returns {q : TaskQueue ι τ} {size : Nat} (h : q.running = .next [] size) :
    Step main q [.returned size] {q with running := .outside}

end

/-! ### What the mutex gives -/

/-- Who is between lock and release holds the mutex, and what it has read is what is there. -/
structure Locked (main : ι) (q : TaskQueue ι τ) : Prop where
  posting : ∀ t, (q.posting t).critical → q.mMutex = some t
  running : q.running.critical → q.mMutex = some main
  /-- The main thread is in one place. -/
  main : q.running.mayPost = false → q.posting main = .outside
  read : ∀ t task seen, q.posting t = .writing task seen → seen = q.mTasks
  readRun : ∀ seen, q.running = .writing seen → seen = q.mTasks

section
variable {main t : ι} {q q' : TaskQueue ι τ} {es : List (Event τ)}

theorem locked_start : Locked main ({} : TaskQueue ι τ) where
  posting _ h := by cases h
  running h := by cases h
  main _ := rfl
  read _ _ _ h := by cases h
  readRun _ h := by cases h

/-- Nobody holds a free mutex. -/
theorem Locked.free (h : Locked main q) (hfree : q.mMutex = none) :
    (∀ u, (q.posting u).critical = false) ∧ q.running.critical = false := by
  constructor
  · intro u
    by_contra hu
    have := h.posting u (by simpa using hu)
    rw [hfree] at this
    cases this
  · by_contra hu
    have := h.running (by simpa using hu)
    rw [hfree] at this
    cases this

/-- One thread posts, and nobody else is between lock and release. -/
theorem Locked.alone (h : Locked main q) (ht : (q.posting t).critical) :
    (∀ u, u ≠ t → (q.posting u).critical = false) ∧ q.running.critical = false := by
  have hheld := h.posting t ht
  constructor
  · intro u hu
    by_contra hcrit
    have hother := h.posting u (by simpa using hcrit)
    rw [hheld] at hother
    exact hu (Option.some.inj hother).symm
  · by_contra hcrit
    have hcrit : q.running.critical = true := by simpa using hcrit
    have hother := h.running hcrit
    rw [hheld] at hother
    obtain rfl := Option.some.inj hother
    rw [h.main (Running.mayPost_of_critical hcrit)] at ht
    cases ht

/-- While the main thread is between lock and release, nobody posts. -/
theorem Locked.alone_running (h : Locked main q) (hr : q.running.critical) (u : ι) :
    (q.posting u).critical = false := by
  by_contra hcrit
  have hcrit : (q.posting u).critical = true := by simpa using hcrit
  rw [(h.alone hcrit).2] at hr
  cases hr

/-- A step of the main thread in `run_pending`. -/
theorem Locked.runs {r : Running τ} {m : Option ι} {tasks : List τ} (h : Locked main q)
    (hothers : ∀ u, (q.posting u).critical → m = q.mMutex ∧ tasks = q.mTasks)
    (hself : r.critical → m = some main) (hread : ∀ seen, r = .writing seen → seen = tasks)
    (hmain : r.mayPost = false → q.posting main = .outside) :
    Locked main {q with running := r, mMutex := m, mTasks := tasks} := by
  constructor
  · intro u hu
    show m = some u
    rw [(hothers u hu).1]
    exact h.posting u hu
  · exact hself
  · exact hmain
  · intro u task seen hu
    have hu : q.posting u = .writing task seen := hu
    show seen = tasks
    rw [(hothers u (by rw [hu]; rfl)).2]
    exact h.read u task seen hu
  · exact hread

/-- Where the main thread posts, it may. -/
theorem Locked.mayPost (h : Locked main q) (ht : t = main) (hp : q.posting t ≠ .outside) :
    q.running.mayPost = true := by
  subst ht
  by_contra hr
  exact hp (h.main (by simpa using hr))

/-- A step of the main thread outside of lock and release. -/
theorem Locked.runs_outside {r : Running τ} (h : Locked main q) (hr : r.critical = false)
    (hmain : r.mayPost = false → q.posting main = .outside) : Locked main {q with running := r} := by
  apply h.runs
  · exact fun _ _ => ⟨rfl, rfl⟩
  · intro hc
    rw [hr] at hc
    cases hc
  · rintro seen rfl
    cases hr
  · exact hmain

/-- Between lock and release the main thread does as it likes with the deque. -/
theorem Locked.runs_critical {r : Running τ} {m : Option ι} {tasks : List τ} (h : Locked main q)
    (hr : q.running.critical) (hself : r.critical → m = some main) (hread : ∀ seen, r = .writing seen → seen = tasks) :
    Locked main {q with running := r, mMutex := m, mTasks := tasks} := by
  apply h.runs
  · intro u hu
    rw [h.alone_running hr u] at hu
    cases hu
  · exact hself
  · exact hread
  · exact fun _ => h.main (Running.mayPost_of_critical hr)

/-- The main thread takes the free mutex. -/
theorem Locked.lockRun (h : Locked main q) (hr : q.running = .locking) (hfree : q.mMutex = none) :
    Locked main {q with running := .reading, mMutex := some main} := by
  apply h.runs
  · intro u hu
    rw [(h.free hfree).1 u] at hu
    cases hu
  · exact fun _ => rfl
  · intro _ hw
    cases hw
  · exact fun _ => h.main (by rw [hr]; rfl)

variable [DecidableEq ι]

@[simp] theorem setPosting_self (p : Posting τ) : (q.setPosting t p).posting t = p :=
  Function.update_self ..

@[simp] theorem setPosting_ne {u : ι} (p : Posting τ) (hu : u ≠ t) :
    (q.setPosting t p).posting u = q.posting u := Function.update_of_ne hu ..

/-- A step of a thread that posts. -/
theorem Locked.posts {p : Posting τ} {m : Option ι} {tasks : List τ} (h : Locked main q)
    (hothers : ∀ u, u ≠ t → (q.posting u).critical → m = q.mMutex ∧ tasks = q.mTasks)
    (hrun : q.running.critical → m = q.mMutex ∧ tasks = q.mTasks)
    (hself : p.critical → m = some t) (hread : ∀ task seen, p = .writing task seen → seen = tasks)
    (hmain : t = main → q.running.mayPost ∨ p = .outside) :
    Locked main {q.setPosting t p with mMutex := m, mTasks := tasks} := by
  constructor
  · intro u hu
    by_cases hut : u = t
    · subst hut
      exact hself (by simpa using hu)
    · have hu : (q.posting u).critical := by simpa [hut] using hu
      show m = some u
      rw [(hothers u hut hu).1]
      exact h.posting u hu
  · intro hr
    show m = some main
    rw [(hrun hr).1]
    exact h.running hr
  · intro hr
    change q.running.mayPost = false at hr
    by_cases hmt : main = t
    · subst hmt
      rcases hmain rfl with hmay | rfl
      · rw [hr] at hmay
        cases hmay
      · simp
    · simpa [hmt] using h.main hr
  · intro u task seen hu
    by_cases hut : u = t
    · subst hut
      exact hread task seen (by simpa using hu)
    · have hu : q.posting u = .writing task seen := by simpa [hut] using hu
      show seen = tasks
      rw [(hothers u hut (by rw [hu]; rfl)).2]
      exact h.read u task seen hu
  · intro seen hr
    have hr : q.running = .writing seen := hr
    show seen = tasks
    rw [(hrun (by rw [hr]; rfl)).2]
    exact h.readRun seen hr

/-- So does a thread that posts. -/
theorem Locked.posts_critical {p : Posting τ} {m : Option ι} {tasks : List τ} (h : Locked main q)
    (ht : (q.posting t).critical) (hself : p.critical → m = some t)
    (hread : ∀ task seen, p = .writing task seen → seen = tasks) :
    Locked main {q.setPosting t p with mMutex := m, mTasks := tasks} := by
  obtain ⟨hnobody, hnorun⟩ := h.alone ht
  apply h.posts
  · intro u hu hcrit
    rw [hnobody u hu] at hcrit
    cases hcrit
  · intro hr
    rw [hnorun] at hr
    cases hr
  · exact hself
  · exact hread
  · intro hmain
    refine .inl (h.mayPost hmain fun hp => ?_)
    rw [hp] at ht
    cases ht

/-- A thread that posts takes the free mutex. -/
theorem Locked.lock {task : τ} (h : Locked main q) (hp : q.posting t = .locking task) (hfree : q.mMutex = none) :
    Locked main {q.setPosting t (.reading task) with mMutex := some t} := by
  obtain ⟨hnobody, hnorun⟩ := h.free hfree
  apply h.posts
  · intro u _ hu
    rw [hnobody u] at hu
    cases hu
  · intro hr
    rw [hnorun] at hr
    cases hr
  · exact fun _ => rfl
  · intro _ _ hw
    cases hw
  · exact fun hmain => .inl (h.mayPost hmain (by simp [hp]))

theorem Locked.step (h : Locked main q) (hs : Step main q es q') : Locked main q' := by
  cases hs with
  | post hp hmain =>
    apply h.posts
    · exact fun _ _ _ => ⟨rfl, rfl⟩
    · exact fun _ => ⟨rfl, rfl⟩
    · exact fun hc => by cases hc
    · exact fun _ _ hw => by cases hw
    · exact fun ht => .inl (hmain ht)
  | lock hp hfree => exact h.lock hp hfree
  | @read t _ hp =>
    have hc : (q.posting t).critical := by rw [hp]; rfl
    apply h.posts_critical hc
    · exact fun _ => h.posting t hc
    · exact fun _ _ hw => by cases hw; rfl
  | @push t _ _ hp =>
    have hc : (q.posting t).critical := by rw [hp]; rfl
    apply h.posts_critical hc
    · exact fun _ => h.posting t hc
    · exact fun _ _ hw => by cases hw
  | @unlock t hp =>
    have hc : (q.posting t).critical := by rw [hp]; rfl
    apply h.posts_critical hc
    · exact fun hw => by cases hw
    · exact fun _ _ hw => by cases hw
  | runPending hr hpost => exact h.runs_outside rfl fun _ => hpost
  | lockRun hr hfree => exact h.lockRun hr hfree
  | readRun hr =>
    have hc : q.running.critical := by rw [hr]; rfl
    apply h.runs_critical hc
    · exact fun _ => h.running hc
    · exact fun _ hw => by cases hw; rfl
  | swap hr =>
    have hc : q.running.critical := by rw [hr]; rfl
    apply h.runs_critical hc
    · exact fun _ => h.running hc
    · exact fun _ hw => by cases hw
  | unlockRun hr =>
    have hc : q.running.critical := by rw [hr]; rfl
    apply h.runs_critical hc
    · exact fun hw => by cases hw
    · exact fun _ hw => by cases hw
  | start hr => exact h.runs_outside rfl fun _ => h.main (by rw [hr]; rfl)
  | finish hr hpost => exact h.runs_outside rfl fun _ => hpost
  | throws hr hpost => exact h.runs_outside rfl fun _ => hpost
  | returns hr => exact h.runs_outside rfl fun _ => h.main (by rw [hr]; rfl)

/-- Who holds the mutex is between lock and release. -/
theorem holder_critical (hrun : Runs (Step main) {} es q) (h : q.mMutex = some t) :
    (q.posting t).critical ∨ t = main ∧ q.running.critical := by
  have hall := hrun.invariant
    (I := fun _ q => ∀ t, q.mMutex = some t → (q.posting t).critical ∨ t = main ∧ q.running.critical) ?_ ?_
  · exact hall t h
  · intro t h
    cases h
  · intro _ q es q' ih hs u hu
    have hposts {t : ι} {p : Posting τ} (hp : (q.posting t).critical → p.critical) (hu : q.mMutex = some u) :
        ((q.setPosting t p).posting u).critical ∨ u = main ∧ q.running.critical := by
      by_cases hut : u = t
      · subst hut
        rw [setPosting_self]
        exact (ih u hu).imp_left hp
      · rw [setPosting_ne p hut]
        exact ih u hu
    have hruns {r : Running τ} (hr : q.running.critical → r.critical) (hu : q.mMutex = some u) :
        (q.posting u).critical ∨ u = main ∧ r.critical := (ih u hu).imp_right fun h => ⟨h.1, hr h.2⟩
    cases hs with
    | post hp => exact hposts (by simp [hp, Posting.critical]) hu
    | lock hp =>
      obtain rfl := Option.some.inj hu
      rw [show _ = Posting.reading _ from setPosting_self _]
      exact .inl rfl
    | read hp => exact hposts (by simp [Posting.critical]) hu
    | push hp => exact hposts (by simp [Posting.critical]) hu
    | unlock | unlockRun => cases hu
    | lockRun =>
      obtain rfl := Option.some.inj hu
      exact .inr ⟨rfl, rfl⟩
    | runPending hr => exact hruns (by simp [hr, Running.critical]) hu
    | readRun | swap => exact hruns (by simp [Running.critical]) hu
    | start hr => exact hruns (by simp [hr, Running.critical]) hu
    | finish hr => exact hruns (by simp [hr, Running.critical]) hu
    | throws hr => exact hruns (by simp [hr, Running.critical]) hu
    | returns hr => exact hruns (by simp [hr, Running.critical]) hu

end

/-! ### The queue without threads -/

/-- What waits for the next swap, and what is left of the batch being run, with its size. -/
structure Waiting (τ : Type) where
  waiting : List τ := []
  batch : Option (List τ × Nat) := none

inductive Waiting.Next : Waiting τ → Event τ → Waiting τ → Prop
  | posted {waiting : List τ} {batch : Option (List τ × Nat)} (task : τ) :
    Next ⟨waiting, batch⟩ (.posted task) ⟨waiting ++ [task], batch⟩
  | swapped {waiting : List τ} : Next ⟨waiting, none⟩ .swapped ⟨[], some (waiting, waiting.length)⟩
  | started {waiting left : List τ} {task : τ} {size : Nat} :
    Next ⟨waiting, some (task :: left, size)⟩ (.started task) ⟨waiting, some (left, size)⟩
  | threw {waiting left : List τ} {size : Nat} :
    Next ⟨waiting, some (left, size)⟩ .threw ⟨waiting, none⟩
  | returned {waiting : List τ} {size : Nat} :
    Next ⟨waiting, some ([], size)⟩ (.returned size) ⟨waiting, none⟩

/-- The batch of a `run_pending` that has swapped. -/
def Running.batch : Running τ → Option (List τ × Nat)
  | .unlocking tasks => some (tasks, tasks.length)
  | .next left size | .inTask left size => some (left, size)
  | _ => none

def TaskQueue.abstract (q : TaskQueue ι τ) : Waiting τ := ⟨q.mTasks, q.running.batch⟩

section
variable {main : ι} {q q' : TaskQueue ι τ} {es : List (Event τ)} [DecidableEq ι]

/-- Each step of a thread is none, or one, of the queue without threads. -/
theorem Locked.follows (h : Locked main q) (hs : Step main q es q') :
    Reads Waiting.Next q.abstract es q'.abstract := by
  have habstract {r : Running τ} (hr : q.running = r) : q.abstract = ⟨q.mTasks, r.batch⟩ := by
    rw [TaskQueue.abstract, hr]
  cases hs with
  | post | lock | read | unlock => exact .rest rfl
  | @push t task seen hp =>
    rw [h.read t task seen hp]
    exact .one (.posted task)
  | runPending hr | lockRun hr | readRun hr | unlockRun hr | finish hr =>
    rw [habstract hr]
    exact .rest rfl
  | @swap seen hr =>
    rw [habstract hr, ← h.readRun seen hr]
    exact .one .swapped
  | start hr =>
    rw [habstract hr]
    exact .one .started
  | throws hr =>
    rw [habstract hr]
    exact .one .threw
  | returns hr =>
    rw [habstract hr]
    exact .one .returned

/-- The threads together behave as the queue without threads. -/
theorem reads_of_runs (hrun : Runs (Step main) {} es q) :
    Locked main q ∧ Reads Waiting.Next {} es q.abstract := by
  have hboth : ∃ a, Reads Waiting.Next {} es a ∧ Locked main q ∧ a = q.abstract := by
    apply hrun.followed (R := fun q a => Locked main q ∧ a = q.abstract) ⟨locked_start, rfl⟩
    rintro q _ es q' ⟨hlocked, rfl⟩ hs
    exact ⟨q'.abstract, hlocked.follows hs, hlocked.step hs, rfl⟩
  obtain ⟨a, hread, hlocked, rfl⟩ := hboth
  exact ⟨hlocked, hread⟩

end

end Chanserv.Queue
