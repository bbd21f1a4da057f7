import Chanserv.Queue.TaskQueue

/-! In which order tasks are executed, and by which call.

What is said of a queue is said of its history: the posts, swaps, starts and
returns of all threads in the order of their steps. The queue without threads
(`Waiting`) reads every history, so that an induction over it, with what waits and
what is left of the batch, shows what all histories have in common. -/
namespace Chanserv.Queue
open Program

variable {ι τ : Type}

def Event.post : Event τ → Option τ
  | .posted task => some task
  | _ => none

def Event.start : Event τ → Option τ
  | .started task => some task
  | _ => none

def Event.isSwap : Event τ → Bool
  | .swapped => true
  | _ => false

/-- The tasks posted, in the order of the posts. -/
def posted (es : List (Event τ)) : List τ := es.filterMap Event.post

/-- The tasks executed, in the order of their starts. -/
def started (es : List (Event τ)) : List τ := es.filterMap Event.start

/-- The end of a history, from the last swap on. -/
def sinceSwap (es : List (Event τ)) : List (Event τ) := es.rtakeWhile fun e => !e.isSwap

/-- A part of a history without a swap and in which no task throws. -/
def Steady (es : List (Event τ)) : Prop := ∀ e ∈ es, e.isSwap = false ∧ e ≠ .threw

section
variable {es es' : List (Event τ)} {e : Event τ}

@[simp] theorem posted_append : posted (es ++ es') = posted es ++ posted es' := List.filterMap_append

@[simp] theorem started_append : started (es ++ es') = started es ++ started es' := List.filterMap_append

@[simp] theorem posted_one : posted [e] = e.post.toList := by
  cases e <;> rfl

@[simp] theorem started_one : started [e] = e.start.toList := by
  cases e <;> rfl

theorem sinceSwap_swapped : sinceSwap (es ++ [.swapped]) = ([] : List (Event τ)) :=
  List.rtakeWhile_concat_neg _ _ _ Bool.noConfusion

theorem sinceSwap_other (h : e.isSwap = false) : sinceSwap (es ++ [e]) = sinceSwap es ++ [e] :=
  List.rtakeWhile_concat_pos _ _ _ (by rw [h]; rfl)

theorem Steady.append (h : Steady (es ++ [e])) : Steady es ∧ e.isSwap = false ∧ e ≠ .threw :=
  ⟨fun e' he' => h e' (List.mem_append_left _ he'), h e (List.mem_append_right _ (List.mem_singleton_self e))⟩

end

/-! ### What all histories have in common -/

/-- What is left of the batch being run. -/
def Waiting.left (a : Waiting τ) : List τ :=
  match a.batch with
  | some (left, _) => left
  | none => []

section
variable {a b : Waiting τ} {es : List (Event τ)}

/-- A task is executed, or left of the batch, or waiting, in the order of the posts. -/
theorem posted_eq (h : Reads Waiting.Next {} es a) (hcalm : .threw ∉ es) :
    posted es = started es ++ a.left ++ a.waiting := by
  have hall := h.invariant (I := fun es a => .threw ∉ es → posted es = started es ++ a.left ++ a.waiting)
    (fun _ => rfl) ?_
  · exact hall hcalm
  · intro es a e b ih hnext hcalm
    rw [List.mem_append, not_or, List.mem_singleton] at hcalm
    have ih := ih hcalm.1
    cases hnext with
    | posted task =>
      rw [posted_append, started_append, ih]
      simp [Event.post, Event.start, Waiting.left]
    | swapped => simpa [Event.post, Event.start, Waiting.left] using ih
    | started => simpa [Event.post, Event.start, Waiting.left] using ih
    | threw => exact absurd rfl hcalm.2
    | returned => simpa [Event.post, Event.start, Waiting.left] using ih

/-- What waits was posted since the last swap. -/
theorem waiting_eq (h : Reads Waiting.Next {} es a) : a.waiting = posted (sinceSwap es) := by
  have hall := h.invariant (I := fun es a => a.waiting = posted (sinceSwap es)) rfl ?_
  · exact hall
  · intro es a e b ih hnext
    cases hnext with
    | posted task =>
      rw [sinceSwap_other rfl, posted_append, ← ih]
      rfl
    | swapped =>
      rw [sinceSwap_swapped]
      rfl
    | started | threw | returned =>
      rw [sinceSwap_other rfl, posted_append, ← ih]
      exact (List.append_nil _).symm

/-- From a swap on, the batch is worked off: in the order of the posts, and to its end before the call
returns. -/
theorem batch_worked {tasks : List τ} {size : Nat} (h : Reads Waiting.Next ⟨[], some (tasks, size)⟩ es b)
    (hsteady : Steady es) :
    (∃ left, b.batch = some (left, size) ∧ started es ++ left = tasks) ∨
      b.batch = none ∧ started es = tasks := by
  have hall := h.invariant
    (I := fun es b => Steady es → (∃ left, b.batch = some (left, size) ∧ started es ++ left = tasks) ∨
      b.batch = none ∧ started es = tasks)
    (fun _ => .inl ⟨tasks, rfl, rfl⟩) ?_
  · exact hall hsteady
  · intro es a e b ih hnext hsteady
    obtain ⟨hbefore, hswap, hthrew⟩ := hsteady.append
    have ih := ih hbefore
    cases hnext with
    | posted task => simpa [Event.start] using ih
    | swapped => cases hswap
    | started =>
      rcases ih with ⟨left, hbatch, htasks⟩ | ⟨hnone, -⟩
      · cases hbatch
        exact .inl ⟨_, rfl, by simpa [Event.start] using htasks⟩
      · cases hnone
    | threw => exact absurd rfl hthrew
    | returned =>
      rcases ih with ⟨left, hbatch, htasks⟩ | ⟨hnone, -⟩
      · cases hbatch
        exact .inr ⟨rfl, by simpa [Event.start] using htasks⟩
      · cases hnone

end

/-! ### The queue -/

section
variable [DecidableEq ι] {main : ι} {es : List (Event τ)} {q : TaskQueue ι τ}

/-- **Tasks are executed in the order of the posts, each once**, and each call of `run_pending`
executes those posted between the swap before its own and its own, as many as it returns. -/
theorem tasks_in_order (hrun : Runs (Step main) {} es q) (hcalm : .threw ∉ es) :
    started es <+: posted es ∧
      (∀ before during, es = before ++ .swapped :: during → Steady during →
        started during <+: posted (sinceSwap before)) ∧
      ∀ before during size after, es = before ++ .swapped :: (during ++ .returned size :: after) →
        Steady during → started during = posted (sinceSwap before) ∧ size = (started during).length := by
  obtain ⟨-, hread⟩ := reads_of_runs hrun
  refine ⟨?_, ?_, ?_⟩
  · rw [posted_eq hread hcalm, List.append_assoc]
    exact List.prefix_append _ _
  · rintro before during rfl hsteady
    obtain ⟨a, b, hbefore, hswap, hduring⟩ := hread.at_event
    cases hswap
    have hwaiting := waiting_eq hbefore
    rcases batch_worked hduring hsteady with ⟨left, -, htasks⟩ | ⟨-, htasks⟩
    · rw [← hwaiting, ← htasks]
      exact List.prefix_append _ _
    · exact htasks.trans hwaiting ▸ List.prefix_refl _
  · rintro before during size after rfl hsteady
    obtain ⟨a, b, hbefore, hswap, hrest⟩ := hread.at_event
    obtain ⟨c, d, hduring, hreturn, -⟩ := hrest.at_event
    cases hswap
    have hwaiting := waiting_eq hbefore
    cases hreturn
    rcases batch_worked hduring hsteady with ⟨left, hbatch, htasks⟩ | ⟨hnone, -⟩
    · cases hbatch
      rw [List.append_nil] at htasks
      exact ⟨htasks.trans hwaiting, by rw [htasks]⟩
    · cases hnone

/-- Threads 1 and 2 post 7 and 8, and thread 1 posts 9 while the main thread, 0, runs 7. -/
def twoCalls : List (Event Nat) :=
  [.posted 7, .posted 8, .swapped, .started 7, .posted 9, .started 8, .returned 2, .swapped, .started 9, .returned 1]

theorem twoCalls_run : ∃ q : TaskQueue Nat Nat, Runs (Step 0) {} twoCalls q := by
  have hstart : Runs (Step 0) ({} : TaskQueue Nat Nat) [] {} := .start
  -- Thread 2 is at the mutex before thread 1 has it.
  have hboth := hstart.step (@Step.post _ _ _ _ _ 1 7 rfl (fun _ => rfl))
    |>.step (@Step.post _ _ _ _ _ 2 8 rfl (fun _ => rfl))
  have hposted := hboth.step (.lock (t := 1) rfl rfl) |>.step (.read (t := 1) rfl) |>.step (.push (t := 1) rfl)
    |>.step (.unlock (t := 1) rfl) |>.step (.lock (t := 2) rfl rfl) |>.step (.read (t := 2) rfl)
    |>.step (.push (t := 2) rfl) |>.step (.unlock (t := 2) rfl)
  have hswapped := hposted.step (.runPending rfl rfl) |>.step (.lockRun rfl rfl) |>.step (.readRun rfl)
    |>.step (.swap rfl) |>.step (.unlockRun rfl)
  have hduring := hswapped.step (.start rfl) |>.step (@Step.post _ _ _ _ _ 1 9 rfl (fun _ => rfl))
    |>.step (.lock (t := 1) rfl rfl) |>.step (.read (t := 1) rfl) |>.step (.push (t := 1) rfl)
    |>.step (.unlock (t := 1) rfl)
  have hreturned := hduring.step (.finish rfl rfl) |>.step (.start rfl) |>.step (.finish rfl rfl)
    |>.step (.returns rfl)
  have hagain := hreturned.step (.runPending rfl rfl) |>.step (.lockRun rfl rfl) |>.step (.readRun rfl)
    |>.step (.swap rfl) |>.step (.unlockRun rfl)
  exact ⟨_, hagain.step (.start rfl) |>.step (.finish rfl rfl) |>.step (.returns rfl)⟩

/-- The first call executes 7 and 8, the second 9. -/
theorem tasks_in_order_two_calls :
    started twoCalls <+: posted twoCalls ∧
      started (twoCalls.take 6 |>.drop 3) = posted (sinceSwap (twoCalls.take 2)) ∧
      started (twoCalls.take 9 |>.drop 8) = posted (sinceSwap (twoCalls.take 7)) := by
  obtain ⟨q, hrun⟩ := twoCalls_run
  obtain ⟨hall, -, hcall⟩ := tasks_in_order hrun (by decide)
  have hfirst := hcall (twoCalls.take 2) (twoCalls.take 6 |>.drop 3) 2 (twoCalls.drop 7) rfl
    (by simp [Steady, twoCalls, Event.isSwap])
  have hsecond := hcall (twoCalls.take 7) (twoCalls.take 9 |>.drop 8) 1 [] rfl
    (by simp [Steady, twoCalls, Event.isSwap])
  exact ⟨hall, hfirst.1, hsecond.1⟩

end

end Chanserv.Queue
