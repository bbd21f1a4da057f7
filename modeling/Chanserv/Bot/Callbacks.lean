import Chanserv.Bot.MasterKey
import Chanserv.Bot.MyIssues
import Chanserv.Trello

/-! Clicks on buttons: `on_callback_query`.

The source tests the data of a click against one constant after another. The
constants differ, so at most one test succeeds: `buttonOf` says which. -/
namespace Chanserv
open Text Program

inductive Button where
  | reqMasterKey | msgAsBot | msgToGpt | runCommand | rebootHost | addNewContractor
  | setNewMsiVersion | sendFile | noMorePhotos | myTasks | teklaEnterMenu | teklaGeneralIssue
  | teklaBack | startSolving | newTask | newFamily | morePhotos | taskClosing
deriving DecidableEq, Repr

namespace Button

def data : Button → Text
  | reqMasterKey => of "req_master_key"
  | msgAsBot => of "msg_as_bot"
  | msgToGpt => of "msg_to_gpt"
  | runCommand => of "run_command"
  | rebootHost => of "reboot_host"
  | addNewContractor => of "add_new_contractor"
  | setNewMsiVersion => of "set_new_msi_version"
  | sendFile => of "send_file"
  | noMorePhotos => of "no_more_photos"
  | myTasks => of "my_tasks"
  | teklaEnterMenu => of "tekla_enter_menu"
  | teklaGeneralIssue => of "tekla_general_issue"
  | teklaBack => of "tekla_back"
  | startSolving => of "start_solving"
  | newTask => of "new_task"
  | newFamily => of "new_family"
  | morePhotos => of "more_photos"
  | taskClosing => of "task_closing"

/-- In the order of the source. -/
def all : List Button :=
  [reqMasterKey, msgAsBot, msgToGpt, runCommand, rebootHost, addNewContractor, setNewMsiVersion,
    sendFile, noMorePhotos, myTasks, teklaEnterMenu, teklaGeneralIssue, teklaBack, startSolving,
    newTask, newFamily, morePhotos, taskClosing]

end Button

def buttonOf (data : Text) : Option Button := Button.all.find? fun b => b.data = data

structure CallbackEnv where
  key : KeyEnv
  intro : Sending
  prompt : Sending
  reboot : Answer Unit
  editMarkup : Answer Unit
  deleteMessage : Answer Unit
  alert : Answer Unit
  changeColor : Answer Unit
  mediaGroup : Answer Unit
  staff : Nat → Sending
  archive : Answer Unit
  deleteIssue : Answer Bool
  myIssues : MyIssuesEnv
  /-- How far the handler gets before each message of the notice that a task is done. -/
  ahead : Nat → Nat := fun _ => 0

section
variable (cfg : Config) (env : CallbackEnv) (query : CallbackQuery)

def say (text : Text) (kb : Keyboard) (parseMode : Text) (r : Sending) : ChatM Unit :=
  service do
    let _ ← call (.sendMessage (.user query.chat.id) text kb parseMode) r

/-- Old buttons do nothing: only those of the last menu are answered. -/
def ifClicked (m : ChatM Unit) : ChatM Unit := do
  let c ← get
  guarded (c.ud.clickedMsgId = query.messageId) m

/-- A service step opens after its prompt was sent. -/
def openService (prompt type : Text) (stat : Nat) : ChatM Unit := do
  say query prompt .none [] env.prompt
  modifyTask fun t => {t with type, stat}

def onReqMasterKey : ChatM Unit :=
  ifClicked query do
    modifyTask fun _ => {}
    say query (of "Введите причину") .none [] env.prompt
    modifyTask fun t => {t with stat := revitMasterKeyReasonStep1}

def onMsgAsBot : ChatM Unit :=
  openService env query (of "Пришлите Telegram ID (тип long) получателя, ПРОБЕЛ после ID, и текст для отправки после упомянутого пробела")
    (of "DEVELOPER") developerSendMsgAsBot

def onMsgToGpt : ChatM Unit := do
  say query (of "Для выхода из режима GTP-4o нажмёте на команду /start") .none [] env.intro
  openService env query (of "Пришлите текст для отправки GPT (Generative pre-trained transformer)")
    (of "DEVELOPER") developerSendMsgToGpt

def onRunCommand : ChatM Unit :=
  openService env query (of "Пришлите команду для выполнения на хосте") (of "DEVELOPER")
    developerRunHostCommand

def onRebootHost : ChatM Unit := do
  say query (of "Перезагружаем компьютер...") .none [] env.prompt
  service (call (.reboot cfg.scriptPathReboot) env.reboot)

def onAddNewContractor : ChatM Unit :=
  ifClicked query <| openService env query
    (of "Введите данные исполнителя в формате\ntelegram-id\\telegram-link\\Trello-список-id\\E-mail\\ФИО исполнителя,\nнапример,\n9275911689\\OctavianAvg\\68033c03d907d7047b2b8f04\\oleg@example.ru\\Олег Булатов")
    (of "STAFF") staffAddNewContractor

def onSetNewMsiVersion : ChatM Unit :=
  ifClicked query <| openService env query
    (of "Пришлите текст в формате X.X.XXX.25, например, 5.4.168.25") (of "STAFF")
    staffSetNewMsiVersion

def onSendFile : ChatM Unit :=
  inThread <| service do
    let s ← get
    sendDocumentToAll s.vConsumers

def onNoMorePhotos : ChatM Unit := do
  let c ← get
  guarded (c.ud.jiraTask.stat = sharedFirstnameStep5) do
    say query (of "Отлично\nНапишите свои имя и фамилию") .ganzel [] env.prompt
    modifyTask fun t => {t with stat := sharedSeparateTeklaFromBimStep6}

def onTeklaEnterMenu : ChatM Unit :=
  ifClicked query do
    service (call (.editMessageReplyMarkup query.chat.id query.messageId .tekla) env.editMarkup)
    modifyTask fun t => {t with subj := of "Tekla"}

def onTeklaGeneralIssue : ChatM Unit := do
  service (call (.deleteMessage query.chat.id query.messageId) env.deleteMessage)
  say query (of "Напишите одним словом тему обращения") .none [] env.prompt
  modifyTask fun t =>
    { t with
      type := of "TEKLA"
      teklaCardCaption := of "Проблемы"
      section_ := of "Проблемы"
      stat := taskSubjStep3 }

def onTeklaBack : ChatM Unit :=
  ifClicked query do
    service (call (.editMessageReplyMarkup query.chat.id query.messageId .consumer) env.editMarkup)
    modifyTask fun _ => {}

/-- `start_solving`: a `TgException` of the first call is passed over. -/
def onStartSolving (issue : PgdbIssue) : ChatM Unit := do
  let c ← get
  guarded (c.ud.clickedMsgId = 0) do
    catchingTg (do
      service (call (.editMessageReplyMarkup query.chat.id query.messageId .taskClosing)
        env.editMarkup)
      modifySession fun u => {u with clickedMsgId := query.messageId}) (pure ())
    service (call (.answerCallbackQuery query.id
      (of "Вы приступили к выполнению задачи.\nПосле завершения задачи, задача будет недоступна, и отправится в архив"))
      env.alert)
    service (changeCardColor issue.idCard (of "green") env.changeColor)

def closingNotice (issue : PgdbIssue) : Text :=
  of "Исполнитель " ++ issue.contractorName ++ of " @" ++ issue.contractorLink ++
    of "\nвыполнил задачу " ++ itoa issue.id ++ of " " ++ issue.issueNum ++ of " " ++ issue.theme ++
    of " от пользователя\n" ++ issue.fromWhom

def onTaskClosing (issue : PgdbIssue) : ChatM Unit := do
  let c ← get
  guarded (c.ud.clickedMsgId ≠ 0) do
    service (call (.editMessageReplyMarkup query.chat.id query.messageId .taskDone) env.editMarkup)
    modifySession fun u => {u with clickedMsgId := 0}
    service (call (.answerCallbackQuery query.id
      (of "Вы завершили задачу\nМожно приступать к выполнению следующей")) env.alert)
    service <| besideThread env.ahead (noticesToStaff cfg (closingNotice issue) .goDashboard env.staff)
      [ archivingCard issue.idCard env.archive,
        do let _ ← deleteIssueFromDb issue.idCard env.deleteIssue ]

/-! ### Handlers that look the session up again -/

variable (now : Int)

/-- Whether the click is on the last menu; then the menu is spent and the task cleared. -/
def spendMenu (f : NewTask → NewTask) : ChatM Bool := do
  let c ← get
  if c.ud.clickedMsgId = query.messageId then do
    modifySession fun u => {u with clickedMsgId := 0, jiraTask := f {}}
    pure true
  else pure false

/-- The first question of a dialog. -/
def askFirst (prompt parseMode : Text) (stat : Nat) : BotM Unit := do
  let found ← selectSession now query.from_.id
  guarded found <| onSession do
    say query prompt .ganzel parseMode env.prompt
    modifyTask fun t => {t with stat}

def onNewTaskQuery : BotM Unit :=
  askFirst env query now (of "Напишите свой раздел") [] taskSectionStep1

def onNewFamilyQuery : BotM Unit :=
  askFirst env query now (of "<u><b>Раздел</b></u> семейства:") (of "HTML") familyUnitStep1

/-- A click that opens a dialog on a cleared task. -/
def openDialog (f : NewTask → NewTask) (ask : BotM Unit) : BotM Unit := do
  let found ← selectSession now query.from_.id
  guarded found do
    let spent ← onSession (spendMenu query f)
    guarded spent ask

def onNewTask : BotM Unit :=
  openDialog query now (fun t => {t with type := of "BIMTASK"}) (onNewTaskQuery env query now)

def onNewFamily : BotM Unit :=
  openDialog query now (fun t => {t with subj := of "Создать семейство", type := of "FAMILY"})
    (onNewFamilyQuery env query now)

def onMorePhotosCommand (issue : PgdbIssue) : BotM Unit := do
  let found ← selectSession now query.from_.id
  guarded found <| onSession <| service <|
    call (.sendMediaGroup issue.sentChatId issue.photos issue.sentMsgId) env.mediaGroup

def onMyTasks : BotM Unit := do
  let spent ← onSession (spendMenu query id)
  guarded spent (inThread (getMyIssues cfg env.myIssues now query.from_.id))

/-! ### The handler -/

/-- The issue whose message the button was under. -/
def clickedIssue : ChatM (Option PgdbIssue) := do
  let c ← get
  match getSelectedIssueId query.messageId c.ud.pgdbIssues c.ud.recentMsgIds c.ud.recentMsgs with
  | none => throw .outOfRange
  | some issue => pure issue

def pressButton (issue : Option PgdbIssue) : Button → BotM Unit
  | .reqMasterKey => onSession (onReqMasterKey env query)
  | .msgAsBot => onSession (onMsgAsBot env query)
  | .msgToGpt => onSession (onMsgToGpt env query)
  | .runCommand => onSession (onRunCommand env query)
  | .rebootHost => onSession (onRebootHost cfg env query)
  | .addNewContractor => onSession (onAddNewContractor env query)
  | .setNewMsiVersion => onSession (onSetNewMsiVersion env query)
  | .sendFile => onSession onSendFile
  | .noMorePhotos => onSession (onNoMorePhotos env query)
  | .myTasks => onMyTasks cfg env query now
  | .teklaEnterMenu => onSession (onTeklaEnterMenu env query)
  | .teklaGeneralIssue => onSession (onTeklaGeneralIssue env query)
  | .teklaBack => onSession (onTeklaBack env query)
  | .startSolving => onSession (issue.elim (pure ()) (onStartSolving env query))
  | .newTask => onNewTask env query now
  | .newFamily => onNewFamily env query now
  | .morePhotos => issue.elim (pure ()) (onMorePhotosCommand env query now)
  | .taskClosing => onSession (issue.elim (pure ()) (onTaskClosing cfg env query))

/-- What a click does in the session of the user who clicked. -/
def ownCallback : BotM Unit := do
  let found ← selectSession now query.from_.id
  guarded found do
    let issue ← onSession (clickedIssue query)
    (buttonOf query.data).elim (pure ()) (pressButton cfg env query now issue)

/-- `on_callback_query`. -/
def onCallbackQuery : BotM Unit :=
  guarded (cfg.hasRole query.from_.id (roleForCallback query.data)) do
    let goesOn ←
      if isApprove query.data ∨ isReject query.data then keyDecision cfg env.key query now
      else pure true
    guarded goesOn (ownCallback cfg env query now)

end

end Chanserv
