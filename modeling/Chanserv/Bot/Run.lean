import Chanserv.Bot.Handles
import Chanserv.Bot.MainLoop

/-! Runs of the bot, with what the updates did.

A run is a sequence of updates, with tasks of other threads and writes of other
processes to the tables in between, from the state after the start. It ends when
the process ends. The main loop makes no other runs (`botLoop_run`). -/
namespace Chanserv
open Text Program

/-- An update, the answers of the world to it, and the state it came in. -/
structure Handled where
  env : UpdateEnv
  x : Update
  before : World

/-- The notable effects of handling an update: all privileged ones, and the starts of
`create_new_issue`, are among them. -/
def Handled.effects (cfg : Config) (h : Handled) : List Effect :=
  (final (handleUpdate cfg h.env h.x) h.before).sh.notes.drop h.before.sh.notes.length

/-- The process goes on: what failed was an exception the loop catches. -/
def Alive (r : Option Stop) : Prop := ∀ stop, r = some stop → stop.fatal = false

inductive Run (cfg : Config) : List Handled → World → Prop
  | start {sh : Shared} (h : sh.trace = []) : Run cfg [] {sh}
  | update {hist w} (hr : Run cfg hist w) (env : UpdateEnv) (x : Update)
      (h : Alive (failure (handleUpdate cfg env x) w)) :
      Run cfg (hist ++ [⟨env, x, w⟩]) (final (handleUpdate cfg env x) w)
  | task {hist w} (hr : Run cfg hist w) (env : TaskEnv) (task : Task)
      (h : failure (serviceBot (runTask cfg env task)) w = none) :
      Run cfg hist (final (serviceBot (runTask cfg env task)) w)
  | queued {hist w} (hr : Run cfg hist w) (tasks : List Task) :
      Run cfg hist {w with mMainTasks := tasks}
  | tables {hist w} (hr : Run cfg hist w) (db : Db) : Run cfg hist {w with sh := {w.sh with db}}

/-! ### What happens between updates -/

/-- Sessions and notable effects as they were. -/
structure Apart (w w' : World) : Prop where
  pointer : w'.uD = w.uD
  sessions : w'.mSessions = w.mSessions
  notes : w'.sh.notes = w.sh.notes

namespace Apart
variable {w w' : World}

theorem session (h : Apart w w') (b : Int) : w'.session b = w.session b :=
  congrArg (SessionStore.session · b) h.sessions

theorem sound (h : Apart w w') (hw : w.Sound) : w'.Sound := by
  rw [World.Sound, h.pointer, h.sessions]
  exact hw

theorem of_silent {m : ServiceM Unit} (hm : Silent m) (w : World) :
    Apart w (final (serviceBot m) w) := by
  refine of_wp (P := fun _ => Apart w) ?_
  rw [serviceBot, wp_zoom]
  exact wp_mono (hm w.sh) (fun _ _ hsh => ⟨rfl, rfl, hsh⟩) fun _ _ hsh => ⟨rfl, rfl, hsh.2⟩

end Apart

section
variable {cfg : Config} {env : TaskEnv}

theorem Silent.getTaskInfo {issueKey : Text} {ienv : TaskInfoEnv} :
    Silent (getTaskInfo cfg issueKey ienv) := by
  refine (Silent.call rfl).bind fun reply => ?_
  cases reply with
  | noHandle => exact Keeps.done _
  | failed => exact Keeps.done _
  | answered status body =>
    refine Keeps.ite (Keeps.done _) ?_
    cases body with
    | none => exact Keeps.done _
    | some v =>
      refine Keeps.reads.bind fun s => Keeps.bind ?_ fun _ => Keeps.bind ?_ fun _ => Keeps.done _
      · exact Keeps.writes fun _ => rfl
      · refine Keeps.guarded fun _ => Silent.catching ?_ fun _ => Keeps.done _
        exact (Silent.call rfl).bind fun _ => Silent.call rfl

theorem Silent.jiraWebhooksHandler {requestUrl : Text} :
    Silent (jiraWebhooksHandler cfg env requestUrl) := by
  refine (Silent.call rfl).bind fun _ => Keeps.ite Silent.throwStd (Keeps.guarded fun _ => ?_)
  exact Silent.getTaskInfo.bind fun _ => Keeps.done _

theorem Silent.getMemSize {path : Text} {r : Answer (Option Int)} : Silent (getMemSize path r) := by
  refine (Silent.call rfl).bind fun size => ?_
  cases size with
  | none => exact Silent.throwStd
  | some n => exact Keeps.done n

theorem Silent.qtBgWorker : Silent (qtBgWorker cfg env) :=
  Silent.getMemSize.bind fun _ => (Silent.call rfl).bind fun _ => Keeps.guarded fun _ => Silent.log rfl

theorem Silent.runTask {task : Task} : Silent (runTask cfg env task) := by
  cases task with
  | jiraWebhook requestUrl => exact Silent.jiraWebhooksHandler
  | qtBgWorker => exact Silent.qtBgWorker

end

/-! ### Induction over runs -/

section
variable {cfg : Config}

/-- A property of runs needs an argument for the start and for updates only. -/
theorem Run.induct {P : List Handled → World → Prop} (hstart : ∀ sh : Shared, sh.trace = [] → P [] {sh})
    (hupdate : ∀ hist w, Run cfg hist w → P hist w → ∀ env x w',
      Alive (failure (handleUpdate cfg env x) w) → w' = final (handleUpdate cfg env x) w →
      Handles cfg env x w (failure (handleUpdate cfg env x) w) w' → P (hist ++ [⟨env, x, w⟩]) w')
    (hapart : ∀ hist w w', Run cfg hist w → P hist w → Apart w w' → P hist w') {hist : List Handled}
    {w : World} (hr : Run cfg hist w) : P hist w := by
  induction hr with
  | start h => exact hstart _ h
  | update hr env x h ih => exact hupdate _ _ hr ih env x _ h rfl (handleUpdate_handles ..)
  | task hr env task h ih => exact hapart _ _ _ hr ih (.of_silent .runTask _)
  | queued hr tasks ih => exact hapart _ _ _ hr ih ⟨rfl, rfl, rfl⟩
  | tables hr db ih => exact hapart _ _ _ hr ih ⟨rfl, rfl, rfl⟩

/-- `uD` is null or live between any two updates. -/
theorem Run.sound {hist : List Handled} {w : World} (hr : Run cfg hist w) : w.Sound :=
  hr.induct (P := fun _ => World.Sound) (fun _ _ _ hp => by cases hp)
    (fun _ _ _ hw _ _ _ _ _ hh => hh.pointer hw) fun _ _ _ _ hw ha => ha.sound hw

/-! ### The main loop makes runs -/

/-- The state is one a longer run ends in. -/
def Reaches (cfg : Config) (hist : List Handled) (w : World) : Prop :=
  ∃ more, Run cfg (hist ++ more) w

theorem Reaches.of_run {hist : List Handled} {w : World} (h : Run cfg hist w) : Reaches cfg hist w :=
  ⟨[], by rw [List.append_nil]; exact h⟩

variable {hist : List Handled}

/-- One update of a poll. -/
theorem Reaches.update {w : World} (h : Reaches cfg hist w) (env : UpdateEnv) (x : Update) :
    wp (handleUpdate cfg env x) (fun _ => Reaches cfg hist)
      (fun stop w' => stop.fatal = false → Reaches cfg hist w') w := by
  obtain ⟨more, hr⟩ := h
  have hnext := hr.update env x
  unfold Program.failure final Alive at hnext
  unfold wp
  cases hm : (handleUpdate cfg env x).run w with
  | ok _ w' =>
    rw [hm] at hnext
    exact ⟨more ++ [⟨env, x, w⟩], List.append_assoc .. ▸ hnext (by simp)⟩
  | error stop w' =>
    rw [hm] at hnext
    refine fun hstop => ⟨more ++ [⟨env, x, w⟩], List.append_assoc .. ▸ hnext fun e he => ?_⟩
    rw [Option.some.injEq] at he
    exact he ▸ hstop

theorem Reaches.runTask {w : World} (h : Reaches cfg hist w) (env : TaskEnv) (task : Task) :
    wp (serviceBot (runTask cfg env task)) (fun _ => Reaches cfg hist) (fun _ _ => True) w := by
  obtain ⟨more, hr⟩ := h
  have hnext := hr.task env task
  unfold Program.failure final at hnext
  unfold wp
  cases hm : (serviceBot (Chanserv.runTask cfg env task)).run w with
  | ok _ w' =>
    rw [hm] at hnext
    exact ⟨more, hnext rfl⟩
  | error stop w' => trivial

theorem takeTurn_run {w : World} (h : Reaches cfg hist w) (turn : Turn) :
    wp (takeTurn cfg turn) (fun _ => Reaches cfg hist) (fun _ _ => True) w := by
  have hqueued {w : World} (h : Reaches cfg hist w) (tasks : List Task) :
      Reaches cfg hist {w with mMainTasks := tasks} := h.imp fun _ hr => hr.queued tasks
  rw [takeTurn, wp_bind, wp_modify, wp_bind, runPending, wp_bind, wp_get, wp_bind, wp_modify]
  refine wp_mono (wp_forEach (fun i _ w hw => hw.runTask _ i.1) (hqueued (hqueued h _) _))
    (fun _ w₁ h₁ => ?_) fun _ _ => id
  rw [wp_catching, longPoll]
  cases turn.poll with
  | throws e => exact h₁
  | returns _ =>
    refine wp_mono (wp_forEach (fun i _ w hw => hw.update i.1 i.2) h₁) (fun _ _ => id)
      fun stop w₂ h₂ => ?_
    cases stop with
    | throws e => exact h₂ rfl
    | _ => trivial

/-- As long as the loop runs, it makes a run. -/
theorem botLoop_run {w : World} (h : Run cfg hist w) (turns : List Turn) :
    wp (botLoop cfg turns) (fun _ => Reaches cfg hist) (fun _ _ => True) w :=
  wp_forEach (fun turn _ _ hw => takeTurn_run hw turn) (.of_run h)

end

/-! ### Runs that are computed -/

/-- The updates handled one after another, and the state after them. -/
def played (cfg : Config) : List (UpdateEnv × Update) → World → List Handled × World
  | [], w => ([], w)
  | (env, x) :: rest, w =>
    let (hist, w') := played cfg rest (final (handleUpdate cfg env x) w)
    (⟨env, x, w⟩ :: hist, w')

/-- None of the updates ends the process. -/
def survives (cfg : Config) : List (UpdateEnv × Update) → World → Bool
  | [], _ => true
  | (env, x) :: rest, w =>
    (failure (handleUpdate cfg env x) w).all (fun stop => !stop.fatal) &&
      survives cfg rest (final (handleUpdate cfg env x) w)

/-- What every update keeps that does not end the process holds after all of them. -/
theorem played_induct {cfg : Config} {P : List Handled → World → Prop}
    (hupdate : ∀ hist w env x, P hist w → Alive (failure (handleUpdate cfg env x) w) →
      P (hist ++ [⟨env, x, w⟩]) (final (handleUpdate cfg env x) w))
    {updates : List (UpdateEnv × Update)} {hist : List Handled} {w : World} (hp : P hist w)
    (h : survives cfg updates w) : P (hist ++ (played cfg updates w).1) (played cfg updates w).2 := by
  induction updates generalizing hist w with
  | nil =>
    rw [Chanserv.played, List.append_nil]
    exact hp
  | cons i rest ih =>
    obtain ⟨env, x⟩ := i
    simp only [survives, Bool.and_eq_true, Option.all_eq_true] at h
    have hrest := ih (hupdate hist w env x hp fun stop hstop => by simpa using h.1 stop hstop) h.2
    rw [List.append_assoc] at hrest
    exact hrest

theorem Run.played {cfg : Config} {updates : List (UpdateEnv × Update)} {hist : List Handled}
    {w : World} (hr : Run cfg hist w) (h : survives cfg updates w) :
    Run cfg (hist ++ (played cfg updates w).1) (played cfg updates w).2 :=
  played_induct (P := Run cfg) (fun _ _ env x hr halive => hr.update env x halive) hr h

/-- A world in which every call returns, and every message sent gets the number 1. -/
def UpdateEnv.calm (now : Int) : UpdateEnv :=
  let sent : Sending := .returns ⟨1, 1⟩
  let photos : PhotosEnv :=
    { photoPath := .returns (of "photos/1.jpg"), photo := .returns (.answered 200), photoUuid := of "u1",
      documentPath := .returns (of "documents/1.pdf"), document := .returns (.answered 200),
      documentUuid := of "u2" }
  let key : KeyEnv :=
    { sessionOver := .returns (), selectKey := .returns true, generatedKey := of "k1",
      requestedAt := of "01.01.2025", insertKey := .returns true, commit := .returns true,
      report := sent, decision := sent, staff := fun _ => sent }
  { now
    dispatcher := ⟨.returns true, .returns true, .returns true⟩
    command := ⟨sent, sent⟩
    smallTalk :=
      { prompt := sent, staff := fun _ => sent, insertContractor := .returns true, insertError := [],
        refusal := sent, selectContractors := .returns true, asBot := sent, notSent := sent,
        command := .returns (.started []), setMsiVersion := .returns true, photos, createIssue := .calm }
    callback :=
      { key, intro := sent, prompt := sent, reboot := .returns (), editMarkup := .returns (),
        deleteMessage := .returns (), alert := .returns (), changeColor := .returns (),
        mediaGroup := .returns (), staff := fun _ => sent, archive := .returns (),
        deleteIssue := .returns true, myIssues := ⟨.returns true, fun _ => sent, sent, sent⟩ } }

/-- A message of a user to the bot, and a click of a user on the last menu. -/
def textFrom (id : Int) (text : String) : Update :=
  .message { messageId := 2, from_ := ⟨id, [], []⟩, chat := ⟨id, []⟩, text := of text }

def clickFrom (id : Int) (data : String) : Update :=
  .callback ⟨[], ⟨id, [], []⟩, 1, ⟨id, []⟩, of data⟩

def startFrom (id : Int) : Update :=
  .command .start { messageId := 2, from_ := ⟨id, [], []⟩, chat := ⟨id, []⟩, text := of "/start" }

end Chanserv
