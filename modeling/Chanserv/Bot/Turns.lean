import Chanserv.Bot.Lives

/-! The main loop as a history.

Webhooks of Jira and the monitor only queue tasks. The main thread empties the queue
between two polls, so its work is that given to it, in this order, each task and each
update once: nothing is left out but what a poll brought behind an update that failed.
`mainHistory` writes this down, turn by turn, and `main_loop_lived` says that the main
thread does it, up to the first failure that leaves the loop. -/
namespace Chanserv
open Text Program

/-! ### The queue

No handler and no task queues anything. -/

section
variable {α : Type} {cfg : Config}

theorem frames_queue {f : World → World} (hf : ∀ w, (f w).mMainTasks = w.mMainTasks) :
    Frames World.mMainTasks (modify f : BotM Unit) :=
  ⟨.writes hf⟩

instance (m : ServiceM α) : Frames World.mMainTasks (serviceBot m) where
  keeps w := by
    rw [serviceBot, wp_zoom]
    unfold wp
    cases m.run w.sh with
    | ok a sh => rfl
    | error e sh => exact ⟨trivial, rfl⟩

instance (m : ChatM α) : Frames World.mMainTasks (onSession m) where
  keeps w := by
    unfold wp
    rw [run_onSession]
    cases w.current with
    | none => exact ⟨trivial, rfl⟩
    | some found =>
      dsimp only
      cases m.run ⟨found.2, w.sh⟩ with
      | ok a c => rfl
      | error e c => exact ⟨trivial, rfl⟩

instance (now id : Int) : Frames World.mMainTasks (selectSession now id) := ⟨fun _ => rfl⟩

variable {m : Message} {q : CallbackQuery} {now : Int}

instance (env : DispatcherEnv) : Frames World.mMainTasks (sessionDispatcher cfg env now m) := by
  have hdue : Frames World.mMainTasks (modify fun w => {w with mLastSessionsCleanup := now} : BotM Unit) :=
    frames_queue fun _ => rfl
  have hevict : Frames World.mMainTasks (modify fun w : World =>
      {w with mSessions := (w.mSessions.evictIdle now (sessionTtl cfg)).2, uD := none} : BotM Unit) :=
    frames_queue fun _ => rfl
  unfold sessionDispatcher evictIdleSessions
  refine Frames.bind inferInstance fun w => Frames.bind inferInstance fun _ => Frames.bind inferInstance fun _ =>
    Frames.bind inferInstance fun found => ?_
  exact ⟨.guarded fun _ => .writes fun _ => rfl⟩

instance (env : CommandEnv) (name : Command) : Frames World.mMainTasks (onCommand cfg env now m name) := by
  cases name <;> simp only [onCommand, onStartCommand] <;> infer_instance

instance (env : KeyEnv) : Frames World.mMainTasks (keyDecision cfg env q now) := by
  unfold keyDecision
  cases requesterId q.data with
  | none => infer_instance
  | some requester =>
    have hlookup : Frames World.mMainTasks (lookUpRequester cfg env q requester now) := by
      unfold lookUpRequester
      infer_instance
    dsimp only
    infer_instance

instance (env : CallbackEnv) (issue : Option PgdbIssue) (b : Button) :
    Frames World.mMainTasks (pressButton cfg env q now issue b) := by
  have hmore (issue : PgdbIssue) : Frames World.mMainTasks (onMorePhotosCommand env q now issue) := by
    unfold onMorePhotosCommand
    infer_instance
  cases b with
  | morePhotos => cases issue <;> simp only [pressButton, Option.elim] <;> infer_instance
  | _ =>
    simp only [pressButton, onMyTasks, getMyIssues, onNewTask, onNewFamily, onNewTaskQuery, onNewFamilyQuery, openDialog,
      askFirst]
    infer_instance

theorem handleUpdate_queue (env : UpdateEnv) (x : Update) : Frames World.mMainTasks (handleUpdate cfg env x) := by
  cases x with
  | command name m =>
    unfold handleUpdate
    infer_instance
  | message m =>
    unfold handleUpdate handleSmallTalk
    infer_instance
  | callback q =>
    have hpress (issue : Option PgdbIssue) : Frames World.mMainTasks
        ((buttonOf q.data).elim (pure ()) (pressButton cfg env.callback q env.now issue)) := by
      cases buttonOf q.data <;> simp only [Option.elim] <;> infer_instance
    unfold handleUpdate onCallbackQuery ownCallback
    infer_instance

end

theorem runTask_queue {cfg : Config} (env : TaskEnv) (task : Task) :
    Frames World.mMainTasks (serviceBot (runTask cfg env task)) := inferInstance

/-! ### Deeds of the main thread -/

/-- The error that it ends with, if any. -/
def Deed.failure (cfg : Config) (w : World) : Deed → Option Stop
  | .update env x => Program.failure (handleUpdate cfg env x) w
  | .job env task => Program.failure (serviceBot (runTask cfg env task)) w
  | _ => none

def Deed.task? : Deed → Option Task
  | .job _ task => some task
  | _ => none

/-- One of these deeds fails, and they end with it. -/
def BreaksOff (cfg : Config) (w : World) (ds : List Deed) (stop : Stop) (w' : World) : Prop :=
  ∃ before d after, ds = before ++ d :: after ∧ d.failure cfg (w.lived cfg before) = some stop ∧
    w' = w.lived cfg (before ++ [d])

/-- These deeds up to the first that fails. -/
def upToFailure (cfg : Config) : World → List Deed → List Deed
  | _, [] => []
  | w, d :: ds =>
    d :: match d.failure cfg w with
      | none => upToFailure cfg (d.after cfg w) ds
      | some _ => []

def jobDeeds (env : Nat → TaskEnv) (tasks : List Task) : List Deed := tasks.zipIdx.map fun x => .job (env x.2) x.1

def updateDeeds (updates : List (UpdateEnv × Update)) : List Deed := updates.map fun x => .update x.1 x.2

/-- The queue is emptied, and what was in it is worked off. -/
def pendingDeeds (env : Nat → TaskEnv) (tasks : List Task) : List Deed := .queued [] :: jobDeeds env tasks

/-- A turn: all that is queued by then, and the updates of the poll, up to one that fails. -/
def Turn.deeds (cfg : Config) (turn : Turn) (w : World) : List Deed :=
  let pending := pendingDeeds turn.tasks (w.mMainTasks ++ turn.posted)
  pending ++ if turn.poll.Normal then upToFailure cfg (w.lived cfg pending) (updateDeeds turn.updates) else []

/-- The turns, one after another, and what is queued last. -/
def mainHistory (cfg : Config) (queued : List Task) (env : Nat → TaskEnv) : List Turn → World → List Deed
  | [], w => pendingDeeds env (w.mMainTasks ++ queued)
  | turn :: turns, w => turn.deeds cfg w ++ mainHistory cfg queued env turns (w.lived cfg (turn.deeds cfg w))

section
variable {cfg : Config} {w w' : World} {ds ds' : List Deed} {stop : Stop} {env : Nat → TaskEnv} {tasks : List Task}

theorem BreaksOff.append (ds : List Deed) (h : BreaksOff cfg (w.lived cfg ds) ds' stop w') :
    BreaksOff cfg w (ds ++ ds') stop w' := by
  obtain ⟨before, d, after, rfl, hfails, rfl⟩ := h
  refine ⟨ds ++ before, d, after, (List.append_assoc ..).symm, ?_, ?_⟩
  · rw [World.lived_append]
    exact hfails
  · rw [List.append_assoc, ← World.lived_append]

theorem BreaksOff.of_prefix (h : BreaksOff cfg w ds stop w') (hds : ds <+: ds') : BreaksOff cfg w ds' stop w' := by
  obtain ⟨before, d, after, rfl, hfails, rfl⟩ := h
  obtain ⟨rest, rfl⟩ := hds
  exact ⟨before, d, after ++ rest, by rw [List.append_assoc, List.cons_append], hfails, rfl⟩

theorem upToFailure_isPrefix (ds : List Deed) (w : World) : upToFailure cfg w ds <+: ds := by
  induction ds generalizing w with
  | nil => exact List.prefix_refl _
  | cons d ds ih =>
    rw [upToFailure]
    refine (List.prefix_cons_inj d).mpr ?_
    cases d.failure cfg w with
    | none => exact ih _
    | some _ => exact List.nil_prefix

/-! ### The queue meanwhile -/

theorem lived_queue (h : ∀ d ∈ ds, (∃ env x, d = .update env x) ∨ ∃ env task, d = .job env task) (w : World) :
    (w.lived cfg ds).mMainTasks = w.mMainTasks := by
  induction ds generalizing w with
  | nil => rfl
  | cons d ds ih =>
    obtain ⟨hd, hds⟩ := List.forall_mem_cons.mp h
    have hone : (d.after cfg w).mMainTasks = w.mMainTasks := by
      rcases hd with ⟨env, x, rfl⟩ | ⟨env, task, rfl⟩
      · exact (handleUpdate_queue env x).final w
      · exact (runTask_queue env task).final w
    exact (ih hds _).trans hone

theorem Turn.deeds_queue (turn : Turn) (w : World) : (w.lived cfg (turn.deeds cfg w)).mMainTasks = [] := by
  show World.mMainTasks (World.lived cfg {w with mMainTasks := []} (_ ++ _)) = []
  refine lived_queue (List.forall_mem_append.mpr ⟨fun d hd => ?_, fun d hd => ?_⟩) _
  · obtain ⟨x, -, rfl⟩ := List.mem_map.mp hd
    exact .inr ⟨_, _, rfl⟩
  · split at hd
    · obtain ⟨x, -, rfl⟩ := List.mem_map.mp ((upToFailure_isPrefix _ _).subset hd)
      exact .inl ⟨_, _, rfl⟩
    · cases hd

theorem pendingDeeds_tasks : (pendingDeeds env tasks).filterMap Deed.task? = tasks := by
  show (jobDeeds env tasks).filterMap Deed.task? = tasks
  rw [jobDeeds, List.filterMap_map]
  show tasks.zipIdx.filterMap (some ∘ Prod.fst) = tasks
  rw [List.filterMap_eq_map, List.zipIdx_map_fst]

theorem Turn.deeds_tasks (turn : Turn) (w : World) :
    (turn.deeds cfg w).filterMap Deed.task? = w.mMainTasks ++ turn.posted := by
  rw [Turn.deeds, List.filterMap_append, pendingDeeds_tasks]
  have hnone : (if turn.poll.Normal then
      upToFailure cfg (w.lived cfg (pendingDeeds turn.tasks (w.mMainTasks ++ turn.posted))) (updateDeeds turn.updates)
      else []).filterMap Deed.task? = [] := by
    refine List.filterMap_eq_nil_iff.mpr fun d hd => ?_
    split at hd
    · obtain ⟨x, -, rfl⟩ := List.mem_map.mp ((upToFailure_isPrefix _ _).subset hd)
      rfl
    · cases hd
  rw [hnone, List.append_nil]

/-- Every task is in the history, once and in its order. -/
theorem mainHistory_tasks (queued : List Task) (env : Nat → TaskEnv) (turns : List Turn) (w : World) :
    (mainHistory cfg queued env turns w).filterMap Deed.task? =
      w.mMainTasks ++ turns.flatMap Turn.posted ++ queued := by
  induction turns generalizing w with
  | nil =>
    rw [mainHistory, pendingDeeds_tasks, List.flatMap_nil, List.append_nil]
  | cons turn turns ih =>
    rw [mainHistory, List.filterMap_append, turn.deeds_tasks, ih, turn.deeds_queue, List.nil_append,
      List.flatMap_cons]
    simp only [List.append_assoc]

end

/-! ### Loops of work -/

section
variable {cfg : Config} {w w' : World} {stop : Stop} {ι : Type} {f : ι → BotM Unit} {deed : ι → Deed}

/-- The rounds of a loop are deeds, one each. -/
structure Rounds (cfg : Config) (f : ι → BotM Unit) (deed : ι → Deed) : Prop where
  after : ∀ i w, (deed i).after cfg w = final (f i) w
  failure : ∀ i w, (deed i).failure cfg w = Program.failure (f i) w

/-- The loop does all its deeds, or those up to the first that fails. -/
theorem Rounds.wp_forEach (h : Rounds cfg f deed) (is : List ι) :
    wp (forEach is f) (fun _ w' => upToFailure cfg w (is.map deed) = is.map deed ∧ w' = w.lived cfg (is.map deed))
      (fun stop w' => BreaksOff cfg w (upToFailure cfg w (is.map deed)) stop w' ∧
        w' = w.lived cfg (upToFailure cfg w (is.map deed))) w := by
  induction is generalizing w with
  | nil => exact ⟨rfl, rfl⟩
  | cons i is ih =>
    have hafter := h.after i w
    have hfailure := h.failure i w
    rw [forEach, wp_bind]
    unfold wp
    cases hm : (f i).run w with
    | ok a w₁ =>
      rw [final_of_ok hm] at hafter
      rw [Program.failure, hm] at hfailure
      dsimp only at hfailure
      subst hafter
      rw [List.map_cons, upToFailure, hfailure]
      refine wp_mono ih ?_ ?_
      · rintro _ w' ⟨hall, rfl⟩
        exact ⟨congrArg _ hall, rfl⟩
      · rintro stop w' ⟨hbreaks, rfl⟩
        exact ⟨hbreaks.append [deed i], rfl⟩
    | error stop w₁ =>
      rw [Program.failure, hm] at hfailure
      dsimp only at hfailure
      have hlast : w₁ = w.lived cfg [deed i] := by
        show w₁ = (deed i).after cfg w
        rw [hafter]
        simp only [final, hm]
      rw [List.map_cons, upToFailure, hfailure]
      exact ⟨⟨[], deed i, [], rfl, hfailure, hlast⟩, hlast⟩

theorem rounds_jobs (env : Nat → TaskEnv) {f : Task × Nat → BotM Unit}
    (hf : ∀ x, f x = serviceBot (runTask cfg (env x.2) x.1)) : Rounds cfg f fun x => .job (env x.2) x.1 where
  after x w := by rw [hf]; rfl
  failure x w := by rw [hf]; rfl

theorem rounds_updates {f : UpdateEnv × Update → BotM Unit} (hf : ∀ x, f x = handleUpdate cfg x.1 x.2) :
    Rounds cfg f fun x => .update x.1 x.2 where
  after x w := by rw [hf]; rfl
  failure x w := by rw [hf]; rfl

/-! ### Turns -/

/-- `run_pending`, with these tasks queued. -/
theorem runPending_deeds (env : Nat → TaskEnv) (tasks : List Task) (w : World) :
    wp (runPending cfg env) (fun _ w' => w' = w.lived cfg (pendingDeeds env tasks))
      (BreaksOff cfg w (pendingDeeds env tasks)) {w with mMainTasks := tasks} := by
  rw [runPending, wp_bind, wp_get, wp_bind, wp_modify]
  apply wp_mono (Rounds.wp_forEach (rounds_jobs env fun _ => rfl) tasks.zipIdx)
  · rintro _ w' ⟨-, rfl⟩
    rfl
  · rintro stop w' ⟨hbreaks, -⟩
    have hall := BreaksOff.of_prefix hbreaks (upToFailure_isPrefix _ _)
    exact BreaksOff.append [.queued []] hall

/-- What a poll throws stays in the turn, unless it is fatal. -/
theorem takeTurn_deeds (turn : Turn) (w : World) :
    wp (takeTurn cfg turn) (fun _ w' => w' = w.lived cfg (turn.deeds cfg w)) (BreaksOff cfg w (turn.deeds cfg w)) w := by
  let pending := pendingDeeds turn.tasks (w.mMainTasks ++ turn.posted)
  rw [takeTurn, wp_bind, wp_modify, wp_bind]
  apply wp_mono (runPending_deeds turn.tasks (w.mMainTasks ++ turn.posted) w)
  · rintro _ w₁ rfl
    rw [wp_catching, longPoll]
    cases hpoll : turn.poll with
    | throws e =>
      have hdeeds : turn.deeds cfg w = pending := by
        rw [Turn.deeds, if_neg fun h => h.not_throws hpoll]
        exact List.append_nil _
      rw [hdeeds]
      rfl
    | returns _ =>
      have hdeeds : turn.deeds cfg w =
          pending ++ upToFailure cfg (w.lived cfg pending) (updateDeeds turn.updates) := by
        rw [Turn.deeds, if_pos (by rw [hpoll]; trivial)]
      rw [hdeeds]
      apply wp_mono (Rounds.wp_forEach (rounds_updates fun _ => rfl) turn.updates)
      · rintro _ w' ⟨hall, rfl⟩
        rw [World.lived_append, updateDeeds, hall]
      · rintro stop w' ⟨hbreaks, rfl⟩
        cases stop with
        | throws e => exact (World.lived_append ..).symm
        | _ => exact hbreaks.append _
  · exact fun stop w' hbreaks => hbreaks.of_prefix (List.prefix_append _ _)

theorem botStart_deeds (turns : List Turn) (queued : List Task) (env : Nat → TaskEnv) (w : World) :
    wp (botStart cfg turns queued env)
      (fun _ w' => w' = w.lived cfg (mainHistory cfg queued env turns w) ∧ w'.mMainTasks = [])
      (BreaksOff cfg w (mainHistory cfg queued env turns w)) w := by
  induction turns generalizing w with
  | nil =>
    rw [botStart, botLoop, forEach, wp_bind, wp_pure, wp_bind, wp_modify]
    refine wp_mono (runPending_deeds env (w.mMainTasks ++ queued) w) ?_ fun _ _ h => h
    rintro _ w' rfl
    refine ⟨rfl, ?_⟩
    show World.mMainTasks (World.lived cfg {w with mMainTasks := []} _) = []
    refine lived_queue (fun d hd => ?_) _
    obtain ⟨x, -, rfl⟩ := List.mem_map.mp hd
    exact .inr ⟨_, _, rfl⟩
  | cons turn turns ih =>
    have hsplit {Q : Unit → World → Prop} {E : Stop → World → Prop} : wp (botStart cfg (turn :: turns) queued env) Q E w ↔
        wp (takeTurn cfg turn) (fun _ w₁ => wp (botStart cfg turns queued env) Q E w₁) E w := by
      simp only [botStart, botLoop, forEach, wp_bind]
    rw [hsplit]
    refine wp_mono (takeTurn_deeds turn w) ?_ fun _ _ h => h.of_prefix (List.prefix_append _ _)
    rintro _ w₁ rfl
    refine wp_mono (ih (w.lived cfg (turn.deeds cfg w))) ?_ fun _ _ h => h.append _
    rintro _ w' ⟨rfl, hempty⟩
    rw [mainHistory, World.lived_append]
    exact ⟨rfl, hempty⟩

/-- **The main loop is a history.** Turn by turn all that is queued is worked off, every task once and in its order,
then the updates of the poll, up to one that fails; and what is queued last. When `bot_start` ends normally all of
this is done and the queue is empty; else the last deed failed, with what ends it. -/
theorem main_loop_lived (cfg : Config) (turns : List Turn) (queued : List Task) (env : Nat → TaskEnv) (w : World) :
    let ds := mainHistory cfg queued env turns w
    let w' := final (botStart cfg turns queued env) w
    ds.filterMap Deed.task? = w.mMainTasks ++ turns.flatMap Turn.posted ++ queued ∧
      match failure (botStart cfg turns queued env) w with
      | none => w' = w.lived cfg ds ∧ w'.mMainTasks = []
      | some stop => BreaksOff cfg w ds stop w' := by
  let Ended (stop : Option Stop) (w' : World) : Prop :=
    match stop with
    | none => w' = w.lived cfg (mainHistory cfg queued env turns w) ∧ w'.mMainTasks = []
    | some stop => BreaksOff cfg w (mainHistory cfg queued env turns w) stop w'
  exact ⟨mainHistory_tasks queued env turns w, of_wp (P := Ended) (botStart_deeds turns queued env w)⟩

end

end Chanserv
