import Chanserv.Bot.World
import Chanserv.Support

/-! The master key of Revit: a click on one of the two buttons under a request.

The data of the button names the requester, and for a while `uD` points to the
requester's session. -/
namespace Chanserv
open Text Program

structure KeyEnv where
  sessionOver : Answer Unit
  selectKey : Answer Bool
  generatedKey : Text
  requestedAt : Text
  insertKey : Answer Bool
  commit : Answer Bool
  report : Sending
  decision : Sending
  staff : Nat → Sending

/-- The key of an open request, else a new one; empty when a statement fails. -/
def insertRevitKeyToDb (env : KeyEnv) (u : UserDispatcher) : ServiceM Text := do
  let tgId := itoa u.chatUserTgId
  let selected ← call (.selectMasterKey tgId) env.selectKey
  let s ← get
  if selected = false then pure []
  else match s.db.masterKeys.find? fun row => row.tgId = tgId ∧ row.isActivated = false with
    | some row => pure row.masterKey
    | none => do
      let row : MasterKeyRow :=
        { tgId, masterKey := env.generatedKey, requestedBy := u.jiraTask.consumerName,
          requestedAt := env.requestedAt, reason := u.jiraTask.keyReason, isActivated := false }
      let inserted ← sql (.insertMasterKey row) env.insertKey fun db =>
        {db with masterKeys := db.masterKeys ++ [row]}
      if inserted then do
        let _ ← call .commit env.commit
        pure env.generatedKey
      else pure []

/-- `stol(data.substr(20))`; both parts may throw. A character that is longer than a
byte at position 19 leaves its tail at position 20, and that is no number. -/
def requesterId (data : Text) : Option Int :=
  match data.drop 19 with
  | [] => none
  | c :: rest => if c.utf8Size = 1 then stol rest else none

section
variable (cfg : Config) (env : KeyEnv) (query : CallbackQuery) (requester : Int)

def comrade (query : CallbackQuery) : Text :=
  of "Тов. " ++ query.from_.firstName ++ of " (" ++ query.from_.username

/-- The request of the session is closed. -/
def clearRequest : ChatM Unit := modifyTask fun t => {t with keyReason := []}

def approveKey : ChatM Unit := do
  let c ← get
  guarded (c.ud.jiraTask.keyReason ≠ []) do
    service (log (.decideKey true requester))
    let newMasterKey ← service (insertRevitKeyToDb env c.ud)
    if newMasterKey = [] then
      service (sendMsgToSupport cfg (of "Ошибка генерации мастер ключа Revit для " ++ itoa requester)
        .none env.report)
    else do
      let _ ← service (call (.sendMessage (.user requester)
        (of "Ваш запрос ключа для Revit одобрен. Ключ <code>" ++ toHtmlEscaped newMasterKey ++
          of "</code>") .ganzel (of "HTML")) env.decision)
      inThread (service (sendMsgToStaff cfg
        (comrade query ++ of ") одобрил запрос от " ++ c.ud.jiraTask.consumerName) .none env.staff))
    clearRequest

def rejectKey : ChatM Unit := do
  let c ← get
  guarded (c.ud.jiraTask.keyReason ≠ []) do
    service (log (.decideKey false requester))
    let _ ← service (call (.sendMessage (.user requester)
      (of "Ваш запрос ключа для Revit отклонён")) env.decision)
    inThread (service (sendMsgToStaff cfg
      (comrade query ++ of ") отклонил запрос от " ++ c.ud.jiraTask.consumerName) .none env.staff))
    -- The source does this before it joins the thread, which does not look at it.
    clearRequest

/-- The part of the branch inside its `try`: whether the handler goes on. -/
def lookUpRequester (now : Int) : BotM Bool :=
  catching (do
    let found ← selectSession now requester
    if found then do
      guarded (requester ≠ 0 ∧ isApprove query.data) (onSession (approveKey cfg env query requester))
      pure true
    else do
      serviceBot (call (.answerCallbackQuery query.id
        (of "Сессия запросившего ключ уже завершена, запрос нужно повторить")) env.sessionOver)
      pure false) fun _ => pure true

/-- The branch for approve and reject buttons: whether the handler goes on. -/
def keyDecision (now : Int) : BotM Bool :=
  match requesterId query.data with
  | none => pure true
  | some requester => do
    let goesOn ← lookUpRequester cfg env query requester now
    let w ← get
    guarded (goesOn ∧ requester ≠ 0 ∧ w.uD.isSome ∧ isReject query.data)
      (onSession (rejectKey cfg env query requester))
    pure goesOn

end

end Chanserv
