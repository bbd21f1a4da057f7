import Chanserv.Bot.Dispatch
import Chanserv.Jira

/-! The main loop: tasks of other threads, then updates.

Webhooks of Jira and the monitor only queue tasks; the main thread runs them
between two polls. Exceptions of a poll are caught by the loop, those of a task
are not. -/
namespace Chanserv
open Text Program

structure TaskEnv where
  notice : Sending
  taskInfo : TaskInfoEnv
  /-- The number the memory script prints; `none` when it prints no number. -/
  memSize : Answer (Option Int)
  uptime : Int
  listcheckerPid : Int

section
variable (cfg : Config)

/-- `substr(1, 3) == "UPD"`, in bytes. -/
def isUpdate : Text → Bool
  | [] => false
  | c :: rest => c.utf8Size = 1 && rest.take 3 = of "UPD"

/-- `substr(1, 3)` throws on an empty path. -/
def jiraWebhooksHandler (env : TaskEnv) (requestUrl : Text) : ServiceM Unit := do
  let _ ← call (.sendMessage (.named cfg.supportTgId) (of "JIRA: " ++ requestUrl)) env.notice
  if requestUrl = [] then throwStd
  else guarded (isUpdate requestUrl) do
    let _ ← getTaskInfo cfg (afterLast '/' requestUrl) env.taskInfo

/-- `stof` throws on an output without a number. -/
def getMemSize (path : Text) (r : Answer (Option Int)) : ServiceM Int := do
  let size ← call (.runScript path) r
  match size with
  | some n => pure n
  | none => throwStd

def qtBgWorker (env : TaskEnv) : ServiceM Unit := do
  let botMemSize ← getMemSize cfg.scriptPathGetmemChanserv env.memSize
  let _ ← call (.sendMessage (.named cfg.supportTgId) (of "TgBot " ++ itoa botMemSize ++
    of " Мб в памяти" ++ of ", uptime " ++ itoa env.uptime ++ of " min")) env.notice
  guarded (env.listcheckerPid ≤ 0) (log (.runScript cfg.scriptPathListchecker))

def runTask (env : TaskEnv) : Task → ServiceM Unit
  | .jiraWebhook requestUrl => jiraWebhooksHandler cfg env requestUrl
  | .qtBgWorker => qtBgWorker cfg env

/-- `run_pending`: the queue is taken as it is and worked off. -/
def runPending (env : Nat → TaskEnv) : BotM Unit := do
  let w ← get
  modify fun w => {w with mMainTasks := []}
  forEach w.mMainTasks.zipIdx fun (task, i) => serviceBot (runTask cfg (env i) task)

/-- One turn of the loop: what was queued before it, and the updates the poll brings. -/
structure Turn where
  posted : List Task
  tasks : Nat → TaskEnv
  poll : Answer Unit
  updates : List (UpdateEnv × Update)

/-- `long_poll.start()`: updates are handled until an exception. -/
def longPoll (turn : Turn) : BotM Unit := do
  match turn.poll with
  | .throws e => throw (.throws e)
  | .returns _ => forEach turn.updates fun (env, update) => handleUpdate cfg env update

def takeTurn (turn : Turn) : BotM Unit := do
  modify fun w => {w with mMainTasks := w.mMainTasks ++ turn.posted}
  runPending cfg turn.tasks
  catching (longPoll cfg turn) fun _ => pure ()

/-- The loop of `bot_start`, up to the turn before which a stop is requested. -/
def botLoop (turns : List Turn) : BotM Unit := forEach turns (takeTurn cfg)

/-- `bot_start` from the first poll on; what is queued when it stops is still worked off. -/
def botStart (turns : List Turn) (queued : List Task) (env : Nat → TaskEnv) : BotM Unit := do
  botLoop cfg turns
  modify fun w => {w with mMainTasks := w.mMainTasks ++ queued}
  runPending cfg env

end

end Chanserv
