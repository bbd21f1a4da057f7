import Chanserv.Trello

/-! Jira: creating a task, attaching files, mailing a new assignee. -/
namespace Chanserv
open Text Program

/-! ### Creating a task -/

/-- The body `create_task` writes by hand around texts escaped before. -/
def createTaskBody (task : NewTask) (projectName : Text) : Text :=
  let sSubj := truncateMsgFromUser task.subj 100
  let sProject := truncateMsgFromUser task.project 100
  of "\x7b \"fields\": \x7b \"project\" : \x7b \"key\": \"" ++ projectName ++
    of "\" \x7d, \"issuetype\" : \x7b \"name\": \"Задача\" \x7d,\n                                     \"summary\" : \"" ++
    sSubj ++ of "; Проект: " ++ sProject ++
    of "\", \"labels\" : [\"Секция:" ++ task.section_ ++ of "\", \"https://t.me/" ++
    task.consumerTgUsernameLink ++
    of "\"],\n                                      \"description\" : \"" ++ task.description ++
    of "\\n\\n--   \\nC уважением,\\n" ++ task.consumerName ++ of "\\nTelegram: https://t.me/" ++
    task.consumerTgUsernameLink ++ of "\"\x7d\x7d"

/-- The number of the created issue, or a code: 1 without curl, 2 for a failed
request, 3 for an unparsable answer. A key without a number counts as 0. -/
def createTask (task : NewTask) (projectName : Text) (r : Answer CurlReply) : ServiceM Int := do
  let reply ← call (.createTask (createTaskBody task projectName)) r
  match reply with
  | .noHandle => pure 1
  | .failed => pure 2
  | .answered status body =>
    -- The report for a status above 300, further down in the source, is never reached.
    if !isSuccess status then pure 2
    else match body with
      | none => pure 3
      | some v =>
        match (v.at (of "key")).bind Json.Value.toText with
        | none => pure 0
        | some key => pure (toInt (atol (after '-' key)))

/-- What an answer means for the caller. -/
def taskOutcome : Answer CurlReply → Answer Int
  | .throws e => .throws e
  | .returns .noHandle => .returns 1
  | .returns .failed => .returns 2
  | .returns (.answered status body) =>
    if !isSuccess status then .returns 2
    else match body with
      | none => .returns 3
      | some v =>
        match (v.at (of "key")).bind Json.Value.toText with
        | none => .returns 0
        | some key => .returns (toInt (atol (after '-' key)))

/-- The creation of a task is one call. -/
theorem createTask_eq (task : NewTask) (projectName : Text) (r : Answer CurlReply) :
    createTask task projectName r =
      call (.createTask (createTaskBody task projectName)) (taskOutcome r) := by
  cases r with
  | throws e => rfl
  | returns reply =>
    cases reply with
    | answered status body =>
      cases hs : isSuccess status with
      | false => simp [createTask, taskOutcome, call, hs]
      | true =>
        cases body with
        | none => simp [createTask, taskOutcome, call, hs]
        | some v =>
          cases hv : (v.at (of "key")).bind Json.Value.toText <;> simp [createTask, taskOutcome, call, hs, hv]
    | _ => rfl

/-- No caller looks at the result. -/
def addAttach (path key : Text) (r : Answer Unit) : ServiceM Unit := call (.addAttach path key) r

/-! ### Mails to an assignee -/

/-- The text of a property tree's node; a node with children has none. -/
def leafText : Json.Value → Text
  | .null => of "null"
  | .bool b => if b then of "true" else of "false"
  | .number literal => literal
  | .string t => t
  | _ => []

/-- `get("fields.assignee.emailAddress", "")`. -/
def assigneeEmail (v : Json.Value) : Text :=
  match ((v.at (of "fields")).bind (·.at (of "assignee"))).bind (·.at (of "emailAddress")) with
  | some node => leafText node
  | none => []

/-- Whether the assignee of an issue is new, and the assignees remembered then. -/
def rememberAssignee (notified : List (Text × Text)) (issueKey email : Text) :
    Bool × List (Text × Text) :=
  let email := email.map Char.toLower
  let others := notified.filter fun e => e.1 ≠ issueKey
  if email = [] then (false, others)
  else if (issueKey, email) ∈ notified then (false, notified)
  else (true, (issueKey, email) :: others)

structure TaskInfoEnv where
  issue : Answer CurlReply
  selectContractor : Answer Bool
  sendEmail : Answer Unit

/-- Whatever fails while the answer is worked on is caught. -/
def getTaskInfo (cfg : Config) (issueKey : Text) (env : TaskInfoEnv) : ServiceM Int := do
  let reply ← call (.getTaskInfo issueKey) env.issue
  match reply with
  | .noHandle => pure 0
  | .failed => pure 2
  | .answered status body =>
    if !isSuccess status then pure 2
    else match body with
      | none => pure 0
      | some v => do
        let email := assigneeEmail v
        let s ← get
        let (isNew, notified) := rememberAssignee s.mNotifiedAssignee issueKey email
        modify fun s => {s with mNotifiedAssignee := notified}
        guarded isNew <| catching (do
          let _ ← call .selectRows env.selectContractor
          call (.sendEmail email (cfg.jiraBrowseUrl ++ issueKey)) env.sendEmail) fun _ => pure ()
        pure 0

end Chanserv
