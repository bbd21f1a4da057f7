import Chanserv.Bot.World
import Chanserv.Jira

/-! Filing a task: the Trello card, the row of the database, the Jira issue.

`createNewIssue` runs in a thread of its own. Its parts are kept in the order of
the source and share the answers of one `CreateIssueEnv`. -/
namespace Chanserv
open Text Program

/-- The answers to the calls made while one task is filed. -/
structure CreateIssueEnv where
  accepted : Sending
  creationDate : Text
  newCard : Answer CurlReply
  cardReport : Sending
  cardWhat : Text
  cardThrewReport : Sending
  insertIssue : Answer Bool
  commit : Answer Bool
  rowReport : Sending
  rowThrewReport : Sending
  addImg : Nat → Answer Unit
  staff : Nat → Sending
  thanks : Sending
  sticker : Nat
  sendSticker : Sending
  newTask : Answer CurlReply
  taskReport : Sending
  addAttach : Nat → Answer Unit
  teklaAdmin : Sending
  jiraWhat : Text
  taskThrewReport : Sending

/-- Every call returns. -/
def CreateIssueEnv.calm : CreateIssueEnv :=
  let sent : Sending := .returns ⟨1, 1⟩
  let card : Answer CurlReply := .returns (.answered 200 (some (.object [(of "id", .string (of "c1"))])))
  let task : Answer CurlReply :=
    .returns (.answered 201 (some (.object [(of "key", .string (of "USERTASKS-7"))])))
  { accepted := sent, creationDate := of "01.01.2025", newCard := card, cardReport := sent,
    cardWhat := [], cardThrewReport := sent, insertIssue := .returns true, commit := .returns true,
    rowReport := sent, rowThrewReport := sent, addImg := fun _ => .returns (), staff := fun _ => sent,
    thanks := sent, sticker := 0, sendSticker := sent, newTask := task, taskReport := sent,
    addAttach := fun _ => .returns (), teklaAdmin := sent, jiraWhat := [], taskThrewReport := sent }

def isTekla (task : NewTask) : Bool := task.type = of "TEKLA"

/-- The head of the card's description, taken before anything is escaped. -/
def cardDescription (username : Text) (task : NewTask) : Text :=
  of "https://t.me/" ++ username ++ of " " ++ task.consumerName ++ of "\n" ++
    if task.category ≠ [] then of "Категория: " ++ task.category ++ of "\n" else []

def cardName (task : NewTask) : Text :=
  task.section_ ++ of " " ++ task.project ++ of " " ++ task.subj ++ of " " ++ task.creationDate

/-- The row `write_issue_to_db` binds. -/
def rowOfTask (task : NewTask) : IssueRow :=
  { consumerId := itoa task.consumerTgId, consumerName := task.consumerName,
    consumerLink := task.consumerTgUsernameLink, section_ := task.section_,
    category := task.category, theme := task.subj, description := task.description,
    createdTime := task.creationDate, idCard := task.idCard, cardStatus := of "pending",
    photos := task.photoIDs, project := task.project }

/-- Whether the row was written; an exception counts as a failure. -/
def writeIssueToDb (task : NewTask) (table : IssueTable) (env : CreateIssueEnv) : ServiceM Bool :=
  catching (do
    let ok ← sql (.insertIssue table (rowOfTask task)) env.insertIssue fun db =>
      db.insertIssue table (rowOfTask task)
    if ok then call .commit env.commit else pure false) fun _ => pure false

section
variable (cfg : Config) (env : CreateIssueEnv)

/-- The Trello card. `createdCardId` stays empty unless it was created. -/
def fileCard (head : Text) : ChatM Unit := do
  let c ← get
  let task := c.ud.jiraTask
  catching (do
    let card ← service (createNewCard cfg.distributionList (cardName task)
      (head ++ task.description) env.newCard)
    match card with
    | .ok id => modifySession fun u => {u with createdCardId := id}
    | .error _ =>
      service (sendTaskToSupport cfg (of "Ошибка создания карточки " ++ head) task .goDashboard
        env.cardReport)) fun _ =>
    service (sendTaskToSupport cfg (of "Ошибка создания карточки " ++ env.cardWhat ++ of "\n" ++ head)
      task .goDashboard env.cardThrewReport)
  modifySession fun u => {u with jiraTask := {u.jiraTask with idCard := u.createdCardId}}

/-- The row. -/
def fileRow : ChatM Unit := do
  let c ← get
  let task := c.ud.jiraTask
  let table := if isTekla task then IssueTable.teklaIssues else .issues
  service (catching (do
    let ok ← writeIssueToDb task table env
    guarded (ok = false)
      (sendTaskToSupport cfg (of "Ошибка записи в базу данных.") task .goDashboard env.rowReport))
    fun _ =>
      sendTaskToSupport cfg (of "Ошибка записи в базу данных PostgreSQL.") task .goDashboard
        env.rowThrewReport)

/-- The images of the card. -/
def fileImages : ChatM Unit := do
  let c ← get
  guarded (c.ud.createdCardId ≠ []) <|
    service <| forEach c.ud.jiraTask.vLocalFilePaths.zipIdx fun (path, i) =>
      addImgToCard c.ud.createdCardId path (env.addImg i)

/-- The message to the staff, sent by a thread. -/
def notifyStaff : ChatM Unit := do
  let c ← get
  inThread <| service <| sendMsgToStaff cfg
    (of "На доске появилась новая задача " ++ c.ud.jiraTask.subj ++ of " от " ++
      c.ud.jiraTask.consumerName) .goDashboard env.staff

/-- Everything a task gets that is not one for Tekla. -/
def fileOnBoard (head : Text) : ChatM Unit := do
  fileCard cfg env head
  fileRow cfg env
  fileImages env
  notifyStaff cfg env

/-- The user is told, and gets a sticker if there are any. -/
def thankUser (message : Message) : ChatM Unit := do
  let _ ← service (call (.sendMessage (.user message.chat.id)
    (of "Ваша задача поступила в работу, скоро с вами свяжутся. Для нового обращения нажмите на клавиатуре /start"))
    env.thanks)
  match cfg.stickerList[env.sticker % cfg.stickerList.length]? with
  | none => pure ()
  | some sticker =>
    let _ ← service (call (.sendSticker (.user message.chat.id) sticker) env.sendSticker)

def projName (task : NewTask) : Text := if isTekla task then of "TEKLA" else of "USERTASKS"

/-- Attachments of the issue Jira created, and a word to the administrator of Tekla. -/
def fileAttachments (issueNum : Int) : ChatM Unit := do
  let c ← get
  let task := c.ud.jiraTask
  service <| forEach task.vLocalFilePaths.zipIdx fun (path, i) =>
    addAttach path (projName task ++ of "-" ++ itoa issueNum) (env.addAttach i)
  guarded (isTekla task) <| service do
    let _ ← call (.sendMessage (.named cfg.teklaAdminTgId) (of "B Jira появилась новая задача: " ++
      cfg.jiraBrowseUrl ++ of "TEKLA-" ++ itoa issueNum)) env.teklaAdmin

/-- The Jira issue. Numbers below 3 are error codes of `create_task`. -/
def fileInJira (head : Text) : ChatM Unit := do
  let c ← get
  let task := c.ud.jiraTask
  catching (do
    let issueNum ← service (createTask task (projName task) env.newTask)
    if issueNum < 3 then do
      service (sendTaskToSupport cfg (of "Ошибка создания задачи Jira " ++ head) task .goDashboard
        env.taskReport)
      modifySession fun u => {u with lastError := 1}
    else fileAttachments cfg env issueNum) fun _ => do
    service (sendTaskToSupport cfg (of "Ошибка создания задачи Jira " ++ env.jiraWhat ++ head) task
      .goDashboard env.taskThrewReport)
    modifySession fun u => {u with lastError := 1}

/-- What is done with the task, up to clearing it. -/
def submitTask (message : Message) : ChatM Unit := do
  let _ ← service (call (.sendMessage (.user message.chat.id)
    (of "Записано. Отправляем задачу в БД...")) env.accepted)
  modifyTask fun t => {t with creationDate := env.creationDate}
  let c ← get
  let head := cardDescription message.chat.username c.ud.jiraTask
  modifySession fun u => escapeAll {u with createdCardId := []}
  guarded (isTekla c.ud.jiraTask = false) (fileOnBoard cfg env head)
  thankUser cfg env message
  fileInJira cfg env head

/-- `create_new_issue`. -/
def createNewIssue (message : Message) : ChatM Unit := do
  let c ← get
  service (log (.createNewIssue c.ud.jiraTask))
  submitTask cfg env message
  modifyTask fun _ => {}

end

/-! ### Photos -/

/-- The answers to the calls made for one message with photos or documents. -/
structure PhotosEnv where
  photoPath : Answer Text
  photo : Answer Download
  photoUuid : Text
  documentPath : Answer Text
  document : Answer Download
  documentUuid : Text

/-- The file Telegram has under a path is downloaded, and its place remembered. -/
def receiveFile (cfg : Config) (filePath uuid : Text) (r : Answer Download) : ChatM Unit :=
  guarded (filePath ≠ []) do
    let outcome ← service (call (.download (of "https://api.telegram.org/file/bot" ++
      cfg.tgBotToken ++ of "/" ++ filePath)) r)
    modifyTask fun t =>
      { t with vLocalFilePaths := t.vLocalFilePaths ++ [downloadImageFromUrl outcome uuid filePath] }

/-- The biggest version of a photo; its index is kept in an `unsigned char`. -/
def biggestPhoto (message : Message) : Text :=
  message.photo.getD ((message.photo.length - 1) % 256) []

/-- `receive_photos`. -/
def receivePhotos (cfg : Config) (env : PhotosEnv) (message : Message) : ChatM Unit :=
  catching (do
    guarded (message.photo ≠ []) do
      let filePath ← service (call (.getFile (biggestPhoto message)) env.photoPath)
      receiveFile cfg filePath env.photoUuid env.photo
      modifyTask fun t => {t with photoIDs := t.photoIDs ++ biggestPhoto message ++ of "\\n"}
    match message.document with
    | none => pure ()
    | some fileId => do
      let filePath ← service (call (.getFile fileId) env.documentPath)
      modifyTask fun t => {t with vDocuIds := t.vDocuIds ++ [fileId ++ of "\n"]}
      receiveFile cfg filePath env.documentUuid env.document) fun _ => pure ()

end Chanserv
