import Chanserv.Queue.Shutdown

/-! Tasks that throw.

`run_pending` takes the tasks out of the queue and executes them one after another.
An exception leaves the call, and with it the deque that holds the tasks behind the
one that threw: they are neither executed nor put back. -/
namespace Chanserv.Queue
open Text Program

variable {ι τ : Type} [DecidableEq ι]

/-- A step while the tasks at some places of the batch throw, and no others: a task that ends leaves
the call if it is one of them. -/
def CallStep (main : ι) (throws : Nat → Prop) (q : TaskQueue ι τ) (es : List (Event τ)) (q' : TaskQueue ι τ) : Prop :=
  Step main q es q' ∧ ∀ left size, q.running = .inTask left size → q'.running ≠ q.running →
    (q'.running = .outside ↔ throws (size - left.length - 1))

/-- Each task of a batch has been executed, once, or waits: in the order of the posts, and before
what was posted during the call. -/
def NoneDiscarded (batch : List τ) (during : List (Event τ)) (waiting : List τ) : Prop :=
  ∃ kept, kept.Sublist batch ∧ (started during ++ kept).Perm batch ∧ waiting = kept ++ posted during

/-! ### A call -/

/-- Where a call is that has executed some tasks of its batch. -/
inductive Working (batch : List τ) (throws : Nat → Prop) (ran : List τ) : Running τ → Prop
  | taken (h : ran = []) : Working batch throws ran (.unlocking batch)
  | between {left : List τ} (h : ran ++ left = batch) (hcalm : ∀ k, k < ran.length → ¬ throws k) :
    Working batch throws ran (.next left batch.length)
  | executing {left : List τ} (h : ran ++ left = batch) (hsome : 0 < ran.length)
    (hcalm : ∀ k, k + 1 < ran.length → ¬ throws k) : Working batch throws ran (.inTask left batch.length)
  | ended {r : Running τ} (h : r.batch = none) : Working batch throws ran r

section
variable {main : ι} {throws : Nat → Prop} {batch ran : List τ} {q q' : TaskQueue ι τ} {es : List (Event τ)}

/-- The task being executed is the last of those that were started. -/
theorem place_of_task {left : List τ} (h : ran ++ left = batch) : batch.length - left.length - 1 = ran.length - 1 := by
  have hlen := congrArg List.length h
  rw [List.length_append] at hlen
  omega

theorem Working.step (h : Working batch throws ran q.running) (hs : CallStep main throws q es q')
    (hswap : .swapped ∉ es) : Working batch throws (ran ++ started es) q'.running := by
  obtain ⟨hs, hends⟩ := hs
  cases hs with
  | post | lock | read | push | unlock =>
    rw [show started _ = ([] : List τ) from rfl, List.append_nil]
    exact h
  | runPending | lockRun | readRun => exact .ended rfl
  | swap => exact absurd (List.mem_singleton_self _) hswap
  | unlockRun hr =>
    rw [hr] at h
    cases h with
    | taken hran =>
      subst hran
      exact .between rfl fun k hk => absurd hk (Nat.not_lt_zero k)
    | ended hr => cases hr
  | @start task left size hr =>
    rw [hr] at h
    cases h with
    | between hbatch hcalm =>
      refine .executing (by rw [← hbatch, List.append_assoc]; rfl) (by simp [Event.start]) ?_
      intro k hk
      rw [started_one, List.length_append] at hk
      exact hcalm k (Nat.lt_of_succ_lt_succ hk)
    | ended hr => cases hr
  | @finish left size hr =>
    have hnext : ¬ throws (size - left.length - 1) := by
      intro hthrows
      cases (hends left size hr (by simp [hr])).mpr hthrows
    rw [hr] at h
    cases h with
    | executing hbatch hsome hcalm =>
      rw [place_of_task hbatch] at hnext
      rw [show started _ = ([] : List τ) from rfl, List.append_nil]
      refine .between hbatch fun k hk => ?_
      rcases Nat.lt_or_ge (k + 1) ran.length with hlt | hge
      · exact hcalm k hlt
      · rwa [show k = ran.length - 1 by omega]
    | ended hr => cases hr
  | throws | returns => exact .ended rfl

theorem Working.run (h : q.running = .unlocking batch) (hrun : Runs (CallStep main throws) q es q')
    (hswap : .swapped ∉ es) : Working batch throws (started es) q'.running := by
  have hall := hrun.invariant
    (I := fun es q' => .swapped ∉ es → Working batch throws (started es) q'.running) ?_ ?_
  · exact hall hswap
  · intro _
    rw [h]
    exact .taken rfl
  · intro es s es' s' ih hs hswap
    rw [List.mem_append, not_or] at hswap
    rw [started_append]
    exact (ih hswap.1).step hs hswap.2

end

/-! ### What waits after a call -/

section
variable {main : ι} {throws : Nat → Prop} {before during : List (Event τ)} {e : Event τ} {q₀ q : TaskQueue ι τ}

theorem sinceSwap_during (h : .swapped ∉ during) : sinceSwap (before ++ .swapped :: during) = during := by
  induction during using List.reverseRecOn with
  | nil => exact sinceSwap_swapped
  | append_singleton during e ih =>
    rw [List.mem_append, not_or, List.mem_singleton] at h
    have hother : e.isSwap = false := by
      cases e <;> first | rfl | exact absurd rfl h.2
    rw [← List.cons_append, ← List.append_assoc, sinceSwap_other hother, ih h.1]

/-- Nothing is kept where only what was posted during the call waits. -/
theorem noneDiscarded_iff {batch left : List τ} (hbatch : started during ++ left = batch) :
    NoneDiscarded batch during (posted during) ↔ left = [] := by
  constructor
  · rintro ⟨kept, -, hperm, hwaiting⟩
    have hnone : kept = [] := List.append_left_eq_self.mp hwaiting.symm
    rw [hnone, List.append_nil, ← hbatch] at hperm
    have hlen := hperm.length_eq
    rw [List.length_append] at hlen
    exact List.eq_nil_of_length_eq_zero (by omega)
  · rintro rfl
    rw [List.append_nil] at hbatch
    exact ⟨[], List.nil_sublist _, by rw [List.append_nil, hbatch], rfl⟩

/-- The task that throws is the first to do so. -/
theorem Working.noneDiscarded_of_throw {batch left : List τ} {size : Nat}
    (h : Working batch throws (started during) (.inTask left size)) (hthrows : throws (size - left.length - 1)) :
    NoneDiscarded batch during (posted during) ↔ ∀ k, k + 1 < batch.length → ¬ throws k := by
  cases h with
  | executing hbatch hsome hcalm =>
    rw [place_of_task hbatch] at hthrows
    rw [noneDiscarded_iff hbatch, ← hbatch, List.length_append]
    constructor
    · rintro rfl k hk
      exact hcalm k hk
    · intro hnone
      by_contra hleft
      have hpos := List.length_pos_iff.mpr hleft
      exact hnone _ (by omega) hthrows
  | ended hr => cases hr

/-- No task has thrown. -/
theorem Working.noneDiscarded_of_return {batch : List τ} {size : Nat}
    (h : Working batch throws (started during) (.next [] size)) :
    NoneDiscarded batch during (posted during) ↔ ∀ k, k + 1 < batch.length → ¬ throws k := by
  generalize hleft : ([] : List τ) = left at h
  cases h with
  | between hbatch hcalm =>
    subst hleft
    rw [noneDiscarded_iff hbatch]
    rw [List.append_nil] at hbatch
    refine iff_of_true rfl fun k hk => hcalm k ?_
    rw [hbatch]
    omega
  | ended hr => cases hr

theorem step_one {es : List (Event τ)} (h : CallStep main throws q₀ es q) : es.length ≤ 1 := by
  obtain ⟨hs, -⟩ := h
  cases hs <;> simp

/-- What a call takes is what was posted since the swap before its own. -/
theorem batch_eq (hbefore : Runs (Step main) {} before q₀) (hswap : CallStep main throws q₀ [.swapped] q) :
    q.running = .unlocking (posted (sinceSwap before)) := by
  obtain ⟨hlocked, hread⟩ := reads_of_runs hbefore
  obtain ⟨hs, -⟩ := hswap
  cases hs with
  | @swap seen hr =>
    rw [← waiting_eq hread]
    exact congrArg Running.unlocking (hlocked.readRun seen hr)

theorem waiting_after (hbefore : Runs (Step main) {} before q₀)
    (hcall : Runs (CallStep main throws) q₀ (.swapped :: (during ++ [e])) q) (hswap : .swapped ∉ during ++ [e])
    (hend : e.post = none) : q.mTasks = posted during := by
  have hrun := hbefore.append (hcall.mono fun _ _ _ hs => hs.1)
  obtain ⟨-, hread⟩ := reads_of_runs hrun
  have hwaiting := waiting_eq hread
  rw [sinceSwap_during hswap, posted_append, posted_one, hend] at hwaiting
  exact hwaiting.trans (List.append_nil _)

/-- **A call that ends, by returning or by an exception, discards no task if and only if none but the
last task of its batch throws.** -/
theorem none_discarded_iff (hbefore : Runs (Step main) {} before q₀)
    (hcall : Runs (CallStep main throws) q₀ (.swapped :: (during ++ [e])) q) (hswap : .swapped ∉ during)
    (hend : e = .threw ∨ ∃ size, e = .returned size) :
    NoneDiscarded (posted (sinceSwap before)) during q.mTasks ↔
      ∀ k, k + 1 < (posted (sinceSwap before)).length → ¬ throws k := by
  have hpost : e.post = none := by
    rcases hend with rfl | ⟨size, rfl⟩ <;> rfl
  have hnoswap : .swapped ∉ during ++ [e] := by
    rw [List.mem_append, not_or, List.mem_singleton]
    refine ⟨hswap, ?_⟩
    rcases hend with rfl | ⟨size, rfl⟩ <;> simp
  rw [waiting_after hbefore hcall hnoswap hpost]
  have hcall' : Runs (CallStep main throws) q₀ ([] ++ .swapped :: (during ++ [e])) q := hcall
  obtain ⟨s, s', hlead, htake, hrest⟩ := hcall'.at_event fun _ _ _ hs => step_one hs
  obtain ⟨t, t', hduring, hlast, -⟩ := hrest.at_event fun _ _ _ hs => step_one hs
  have hbefore' := hbefore.append (hlead.mono fun _ _ _ hs => hs.1)
  rw [List.append_nil] at hbefore'
  have hworking := Working.run (batch_eq hbefore' htake) hduring hswap
  obtain ⟨hlast, hends⟩ := hlast
  rcases hend with rfl | ⟨size, rfl⟩
  · cases hlast with
    | @throws left size hr =>
      have hthrows := (hends left size hr (by simp [hr])).mp rfl
      rw [hr] at hworking
      exact hworking.noneDiscarded_of_throw hthrows
  · cases hlast with
    | returns hr =>
      rw [hr] at hworking
      exact hworking.noneDiscarded_of_return

end

/-! ### A webhook whose task throws -/

section
variable {main : ι} {throws : Nat → Prop} {q q' : TaskQueue ι τ} {es es' : List (Event τ)}

/-- A step during which no task ends. -/
theorem callStep_of (hs : Step main q es q') (h : ∀ left size, q.running ≠ .inTask left size) :
    CallStep main throws q es q' := ⟨hs, fun left size hr => absurd hr (h left size)⟩

/-- The first task of a batch throws. -/
theorem throws_run {task : τ} {left : List τ} (h : q.running = .outside) (hpost : q.posting main = .outside)
    (hfree : q.mMutex = none) (htasks : q.mTasks = task :: left) (hthrows : throws 0) :
    Runs (CallStep main throws) q [.swapped, .started task, .threw] {q with mTasks := []} := by
  have hstart : Runs (CallStep main throws) q [] q := .start
  have hbegun := hstart.step (callStep_of (.runPending h hpost) (by simp [h]))
    |>.step (callStep_of (.lockRun rfl hfree) (by simp)) |>.step (callStep_of (.readRun rfl) (by simp))
  have htaken := hbegun.step (callStep_of (.swap rfl) (by simp)) |>.step (callStep_of (.unlockRun rfl) (by simp))
  rw [htasks] at htaken
  have hstarted := htaken.step (callStep_of (.start rfl) (by simp))
  have hthrown : CallStep main throws {q with
      mMutex := none, mTasks := [], running := .inTask left (task :: left).length} [.threw]
      {q with mMutex := none, mTasks := [], running := .outside} := by
    refine ⟨.throws rfl hpost, ?_⟩
    intro left' size hr _
    cases hr
    simpa using hthrows
  simpa [h, hfree] using hstarted.step hthrown

/-- A thread posts while nobody holds the mutex. -/
theorem post_run {s : TaskQueue ι τ} {t : ι} {task : τ} (hrun : Runs (Step main) s es q) (ht : t ≠ main)
    (hout : q.posting t = .outside) (hfree : q.mMutex = none) :
    Runs (Step main) s (es ++ [.posted task]) {q with mTasks := q.mTasks ++ [task]} := by
  have hdone := hrun.step (@Step.post _ _ _ _ _ t task hout fun h => absurd h ht)
    |>.step (.lock (t := t) (setPosting_self _) hfree) |>.step (.read (t := t) (setPosting_self _))
    |>.step (.push (t := t) (setPosting_self _)) |>.step (.unlock (t := t) (setPosting_self _))
  simpa [TaskQueue.setPosting, hfree, ← hout] using hdone

end

/-- A webhook of which the support chat can not be told. -/
def untold : Task := .jiraWebhook (of "/UPD/A-1")

theorem untold_run : Runs (Step Thread.main) {} [.posted untold] ({mTasks := [untold]} : TaskQueue Thread Task) := by
  have hstart : Runs (Step Thread.main) ({} : TaskQueue Thread Task) [] {} := .start
  exact post_run (t := .jiraListener) hstart (by decide) rfl rfl

/-- Alone in its batch. -/
theorem none_discarded_iff_alone : ∃ q : TaskQueue Thread Task,
    Runs (CallStep .main (· = 0)) {mTasks := [untold]} [.swapped, .started untold, .threw] q ∧
      NoneDiscarded [untold] [.started untold] q.mTasks := by
  have hcall : Runs (CallStep Thread.main (· = 0)) _ (.swapped :: ([.started untold] ++ [.threw])) _ :=
    @throws_run _ _ _ Thread.main (· = 0) {mTasks := [untold]} _ [] rfl rfl rfl rfl rfl
  refine ⟨_, hcall, (none_discarded_iff untold_run hcall (by simp) (.inl rfl)).mpr ?_⟩
  intro k hk
  change k + 1 < 1 at hk
  omega

/-- The report of the monitor behind it is lost. -/
theorem report_discarded : ∃ q₀ q : TaskQueue Thread Task,
    Runs (Step .main) {} [.posted untold, .posted .qtBgWorker] q₀ ∧
      Runs (CallStep .main (· = 0)) q₀ [.swapped, .started untold, .threw] q ∧
      ¬ NoneDiscarded [untold, .qtBgWorker] [.started untold] q.mTasks := by
  have hposted := @post_run _ _ _ Thread.main _ _ _ .monitorMemSizeWorker Task.qtBgWorker untold_run (by decide) rfl rfl
  refine ⟨_, _, hposted, @throws_run _ _ _ Thread.main (· = 0) _ _ [.qtBgWorker] rfl rfl rfl rfl rfl, ?_⟩
  intro hnone
  have hleft := (@noneDiscarded_iff _ [.started untold] _ [Task.qtBgWorker] rfl).mp hnone
  cases hleft

end Chanserv.Queue
