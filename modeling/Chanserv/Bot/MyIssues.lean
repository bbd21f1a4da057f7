import Chanserv.Bot.World
import Chanserv.Support

/-! The list of a contractor's issues.

Every issue shown is remembered in the session together with the message that
shows it, so that a click under a message finds its issue. -/
namespace Chanserv
open Text Program

structure MyIssuesEnv where
  selectIssues : Answer Bool
  show_ : Nat → Sending
  noTasks : Sending
  sticker : Sending

/-- The issue a row becomes, as the `p`-th of the list. -/
def issueOfRow (p : Nat) (row : IssueRow) : PgdbIssue :=
  { id := row.id, fromWhom := row.consumerName ++ of " (@" ++ row.consumerLink ++ of ")",
    unit := row.section_, category := row.category, theme := row.theme,
    description := row.description, creationDate := row.createdTime, idCard := row.idCard,
    photos := splitPhotos row.photos, project := row.project,
    contractorList := row.contractorList, contractorLink := row.contractorLink,
    contractorName := row.contractorName,
    issueNum := of "---------- Задача " ++ itoa p ++ of " ----------" }

/-- The message about an issue; families have a template of their own. -/
def builtMsg (issue : PgdbIssue) : Text :=
  if issue.theme = of "Создание семейства" then
    of "ID%: " ++ itoa issue.id ++ of " | " ++ issue.theme ++
      of "\nВыполнение строго в Revit 2022❗" ++ of "\nРаздел: " ++ issue.unit ++
      of "\nКатегория: " ++ issue.category ++ of "\nПуть до тех.док.: " ++ issue.project ++
      of "\nОт кого: " ++ issue.fromWhom ++ of "\nДата создания: " ++ issue.creationDate ++
      of "\nОписание: " ++ issue.description
  else
    of "UIN: " ++ itoa issue.id ++ of "\nРаздел: " ++ issue.unit ++ of "\nТема: " ++ issue.theme ++
      of "\nПроект: " ++ issue.project ++ of "\nОт кого: " ++ issue.fromWhom ++
      of "\nДата создания: " ++ issue.creationDate ++ of "\nОписание: " ++ issue.description

/-- A caption is shorter than a message, and its limit is tested in bytes. -/
def caption (issue : PgdbIssue) : Text :=
  let msg := builtMsg issue
  if utf8Length msg > 1000 then truncateMsgFromUser msg 1000 else msg

def sendIssue (receiver : Int) (issue : PgdbIssue) (r : Sending) : ServiceM Sent :=
  match issue.photos with
  | [] => call (.sendMessage (.user receiver) (builtMsg issue) .startSolving) r
  | [photo] => call (.sendPhoto (.user receiver) photo (caption issue) .startSolving) r
  | photo :: _ => call (.sendPhoto (.user receiver) photo (caption issue) .startSolvingWPhoto) r

/-- What the session remembers of an issue that was sent. -/
def rememberIssue (issue : PgdbIssue) (sent : Sent) (u : UserDispatcher) : UserDispatcher :=
  { u with
    recentMsgs := u.recentMsgs ++ [⟨issue.id, sent.messageId⟩]
    recentMsgIds := u.recentMsgIds ++ [sent.messageId]
    pgdbIssues := u.pgdbIssues ++ [{issue with sentMsgId := sent.messageId, sentChatId := sent.chatId}] }

def forgetIssues (u : UserDispatcher) : UserDispatcher :=
  {u with recentMsgs := [], recentMsgIds := [], pgdbIssues := []}

/-- The messages about the rows found. -/
def showRows (cfg : Config) (env : MyIssuesEnv) (fromMessageId : Int) (rows : List IssueRow) :
    ChatM Unit := do
  modifySession forgetIssues
  forEach rows.zipIdx fun (row, i) => do
    let issue := issueOfRow (i + 1) row
    let sent ← service (sendIssue fromMessageId issue (env.show_ i))
    modifySession (rememberIssue issue sent)
  -- A failed SELECT affects -1 rows, which is not zero.
  guarded (rows = [] ∧ env.selectIssues = .returns true) do
    let _ ← service (call (.sendMessage (.user fromMessageId)
      (of "У вас нет активных задач\nКайфуйте 🚬🚬🚬") .ganzel) env.noTasks)
    guarded (cfg.stickerNoTasks ≠ []) do
      let _ ← service (call (.sendSticker (.user fromMessageId) cfg.stickerNoTasks) env.sticker)

def showMyIssues (cfg : Config) (env : MyIssuesEnv) (fromMessageId : Int) : ChatM Unit := do
  let rows ← service (select env.selectIssues fun db =>
    db.issues.filter fun row => row.contractorId = itoa fromMessageId)
  showRows cfg env fromMessageId rows

/-- `get_my_issues` looks the session up again. -/
def getMyIssues (cfg : Config) (env : MyIssuesEnv) (now fromMessageId : Int) : BotM Unit := do
  let found ← selectSession now fromMessageId
  guarded found (onSession (showMyIssues cfg env fromMessageId))

end Chanserv
