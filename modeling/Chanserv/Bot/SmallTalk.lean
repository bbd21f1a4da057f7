import Chanserv.Bot.CreateIssue

/-! Messages that are no commands: the answers of the dialogs, and the service steps.

`stat` of the session's task says what the message is an answer to. Most steps
are a `Question`: the answer is cleaned and recorded, the next question is asked,
and only then the dialog moves on. -/
namespace Chanserv
open Text Program

/-- What became of a command on the host. -/
inductive CommandOutput where
  /-- Its output, as it was read piece by piece. A piece may end inside of a character: what it
  is made of are bytes, each as the character of its code. -/
  | started (chunks : List Text)
  | notStarted (stderr : Text)
deriving DecidableEq, Repr

structure SmallTalkEnv where
  /-- The message a step ends with. -/
  prompt : Sending
  staff : Nat → Sending
  insertContractor : Answer Bool
  insertError : Text
  refusal : Sending
  selectContractors : Answer Bool
  asBot : Sending
  notSent : Sending
  command : Answer CommandOutput
  setMsiVersion : Answer Bool
  photos : PhotosEnv
  createIssue : CreateIssueEnv
  /-- How far the handler gets before each message of the notice that a key is wanted. -/
  ahead : Nat → Nat := fun _ => 0

/-! ### Questions -/

/-- The texts of one line are stripped of line breaks, then cut. -/
def cleanLine (t : Text) : Text := truncateMsgFromUser (stripLineBreaks t) 150

def cleanDescription (t : Text) : Text := truncateMsgFromUser t 3000

structure Question where
  clean : Text → Text
  record : Text → NewTask → NewTask
  prompt : Text
  kb : Keyboard := .none
  parseMode : Text := []
  next : Nat

/-- The question after the one a message answers. -/
def Question.ask (question : Question) (env : SmallTalkEnv) (receiver : Int) (text : Text) :
    ChatM Unit := do
  modifyTask (question.record (question.clean text))
  let _ ← service (call (.sendMessage (.user receiver) question.prompt question.kb
    question.parseMode) env.prompt)
  modifyTask fun t => {t with stat := question.next}

def taskSection : Question where
  clean := cleanLine
  record text t := {t with section_ := text}
  prompt := of "Записано\nНапишите, по какому проекту вопрос?\nНапример: Синергия 11.1.3 или Кампусы ВН"
  next := taskProjectStep2

def taskProject : Question where
  clean := cleanLine
  record text t := {t with project := text}
  prompt := of "Записано\nНапишите одним словом тему обращения"
  next := taskSubjStep3

def taskSubj : Question where
  clean := cleanLine
  record text t := {t with subj := text}
  prompt := of "Опишите максимально подробно проблему"
  next := taskDescrStep4

def taskDescr : Question where
  clean := cleanDescription
  record text t := {t with description := text}
  prompt := of "Пришлите изображения и <i><b>после их отправки</b></i> нажмите кнопку \"Нет больше фото\""
  kb := .managePhotos
  parseMode := of "Html"
  next := sharedFirstnameStep5

def familyUnit : Question where
  clean := cleanLine
  record text t := {t with section_ := text}
  prompt := of "Записано\n<u><b>Категория</b></u> семейства: "
  parseMode := of "Html"
  next := familyCategoryStep2

def familyCategory : Question where
  clean := cleanLine
  record text t := {t with category := text}
  prompt := of "<u><b>Напиши, что нужно сделать</b></u>:\nЖелательно указать:\n -параметры;\n -информацию об УГО"
  parseMode := of "Html"
  next := familyDescrStep3

def familyDescr : Question where
  clean := cleanDescription
  record text t := {t with description := text}
  prompt := of "<u><b>Путь/ссылка</b></u> на документацию (сайт или семейство):"
  parseMode := of "Html"
  next := familyProjectStep4

def familyProject : Question where
  clean := cleanLine
  record text t := {t with project := text}
  prompt := of "Пришлите изображения и <b>после</b> их отправки нажмите кнопку \"Нет больше фото\""
  kb := .managePhotos
  parseMode := of "Html"
  next := sharedFirstnameStep5

def masterKeyReason : Question where
  clean := cleanDescription
  record text t := {t with keyReason := text}
  prompt := of "Напишите свои имя и фамилию"
  next := revitMasterKeyFirstnameStep2

section
variable (cfg : Config) (env : SmallTalkEnv) (message : Message)

/-! ### The request of a master key -/

def approveCallbackData (id : Int) : Text := of "approve_key_request_" ++ itoa id

def rejectCallbackData (id : Int) : Text := of "_reject_key_request_" ++ itoa id

/-- The name of who wants a key; staff is asked, by a thread. -/
def masterKeyFirstname : ChatM Unit := do
  modifyTask fun t => {t with consumerName := cleanDescription message.text}
  let c ← get
  service <| besideThread env.ahead (noticesToStaff cfg
      (of "Запрос одобрения ключа от " ++ c.ud.jiraTask.consumerName ++ of " Причина: " ++
        c.ud.jiraTask.keyReason)
      (.rejectOrApprove (approveCallbackData message.from_.id) (rejectCallbackData message.from_.id))
      env.staff)
    [do let _ ← call (.sendMessage (.user message.chat.id) (of "Ожидайте одобрения")) env.prompt]
  -- The source does this before it joins the thread, which does not look at it.
  modifyTask fun t => {t with stat := 0}

/-! ### Service steps -/

/-- `id\link\list\email\name`, as a row of `contractors`. -/
def contractorOfParts : List Text → Option ContractorRow
  | [id, link, trelloList, email, name] => some { id, name, link, trelloList, email }
  | _ => none

def staffAddContractor : ChatM Unit := do
  let contractorParts := message.text.splitOn '\\'
  match contractorOfParts contractorParts with
  | none => do
    let _ ← service (call (.sendMessage (.user message.chat.id)
      (of "Ожидается 5 полей через \\, получено " ++ itoa contractorParts.length ++
        of ". Исполнитель не добавлен")) env.refusal)
    modifyTask fun _ => {}
  | some row => do
    let ok ← service (sql (.insertContractor row) env.insertContractor fun db =>
      {db with contractors := db.contractors ++ [row]})
    if ok then do
      let _ ← service (call (.sendMessage (.user message.chat.id)
        (of "Сотрудник " ++ row.link ++ of " добвавлен в качестве исполнителя")) env.prompt)
      service (reloadContractorsList env.selectContractors)
      modifyTask fun _ => {}
    else do
      let _ ← service (call (.sendMessage (.user message.chat.id)
        (of "Ошибка записи исполнителя в БД: " ++ env.insertError)) env.refusal)
      modifyTask fun _ => {}

def developerMsgAsBot : ChatM Unit := do
  let receiver := atol (before ' ' message.text)
  let text := after ' ' message.text
  service (catchingTg (do let _ ← call (.sendAsBot receiver text) env.asBot) do
    let _ ← call (.sendMessage (.user message.chat.id) (of "try/catch: Сообщение " ++ text ++
      of " телеграм юзеру " ++ itoa receiver ++ of " НЕ отправлено")) env.notSent)
  let _ ← service (call (.sendMessage (.user message.chat.id) (of "Сообщение " ++ text ++
    of " телеграм юзеру " ++ itoa receiver ++ of " отправлено")) env.prompt)
  modifyTask fun _ => {}

/-- Program and parameters of a command line: the program ends at the first blank, the
parameters begin after the first blank or tab. -/
def commandLine (text : Text) : Text × Option Text :=
  if ' ' ∈ text then
    (before ' ' text, some ((text.dropWhile fun c => c ≠ ' ' ∧ c ≠ '\t').drop 1))
  else (text, none)

/-- A `std::string` assigned from a `const char *`: it ends before the first zero. -/
def cString (t : Text) : Text := t.takeWhile (· ≠ '\x00')

/-- `while (ps.waitForReadyRead(-1)) readFromCLI = ps.readAllStandardOutput();` -/
def readFromCli (chunks : List Text) : Text := chunks.foldl (fun _ chunk => cString chunk) []

def developerHostCommand : ChatM Unit := do
  let (program, parameters) := commandLine message.text
  let output ← service (call (.runCommand program parameters) env.command)
  match output with
  | .started chunks => service (sendMsgToSupport cfg (readFromCli chunks) .developer env.prompt)
  | .notStarted stderr =>
    service (sendMsgToSupport cfg (of "Ошибка выполнения команды " ++ stderr) .developer env.prompt)

def staffSetMsiVersion : ChatM Unit := do
  let _ ← service (sql (.setMsiVersion message.text) env.setMsiVersion fun db =>
    {db with msiActualVersion := message.text})
  let _ ← service (call (.sendMessage (.user message.chat.id)
    (of "Версия сборки плагина актуализирована в БД до " ++ message.text)) env.prompt)
  modifyTask fun _ => {}

/-! ### The last steps of a task -/

/-- The customer's name completes the task, which is filed at once by a thread. -/
def sharedSeparateTeklaFromBim : ChatM Unit :=
  guarded (message.text ≠ []) do
    modifyTask fun t =>
      { t with
        consumerName := truncateMsgFromUser message.text 150
        consumerTgId := message.chat.id
        consumerTgUsernameLink := message.chat.username
        stat := sharedFinalStep7 }
    inThread (createNewIssue cfg env.createIssue message)

/-- Photos; a message with a text runs into the step below, that of a family's path. -/
def sharedFirstname : ChatM Unit :=
  if message.text = [] then inThread (receivePhotos cfg env.photos message)
  else familyProject.ask env message.chat.id message.text

/-- The `switch` over the step the session is at. -/
def answerStep (stat : Nat) : ChatM Unit :=
  match stat with
  | revitMasterKeyFirstnameStep2 => masterKeyFirstname cfg env message
  | revitMasterKeyReasonStep1 => masterKeyReason.ask env message.from_.id message.text
  | staffAddNewContractor => staffAddContractor env message
  | developerSendMsgAsBot => developerMsgAsBot env message
  | developerRunHostCommand => developerHostCommand cfg env message
  | staffSetNewMsiVersion => staffSetMsiVersion env message
  | sharedSeparateTeklaFromBimStep6 => sharedSeparateTeklaFromBim cfg env message
  | sharedFinalStep7 => inThread (createNewIssue cfg env.createIssue message)
  | taskDescrStep4 => taskDescr.ask env message.chat.id message.text
  | taskSubjStep3 => taskSubj.ask env message.chat.id message.text
  | taskProjectStep2 => taskProject.ask env message.chat.id message.text
  | taskSectionStep1 => taskSection.ask env message.chat.id message.text
  | sharedFirstnameStep5 => sharedFirstname cfg env message
  | familyProjectStep4 => familyProject.ask env message.chat.id message.text
  | familyDescrStep3 => familyDescr.ask env message.chat.id message.text
  | familyCategoryStep2 => familyCategory.ask env message.chat.id message.text
  | familyUnitStep1 => familyUnit.ask env message.chat.id message.text
  | _ => pure ()

/-- The right to act at the step is checked again. -/
def smallTalk : ChatM Unit := do
  let c ← get
  if cfg.hasRole message.from_.id (roleForStep c.ud.jiraTask.stat) then
    answerStep cfg env message c.ud.jiraTask.stat
  else modifyTask fun _ => {}

/-- `handle_small_talk`. -/
def handleSmallTalk (now : Int) : BotM Unit := do
  let found ← selectSession now message.from_.id
  guarded found (onSession (smallTalk cfg env message))

end

end Chanserv
