import Chanserv.Database
import Chanserv.Program.Beside
import Chanserv.Structures

/-! The world outside the bot, and programs that talk to it.

Everything the bot asks of Telegram, Trello, Jira, the databases and the host is
an `Effect`. A call writes its effect to the trace and is then answered, by a
value or by an exception, as the environment chooses: an effect in the trace is
an attempt. A few entries are no calls but mark where the code starts something
(`createNewIssue`, `decideKey`). -/
namespace Chanserv
open Text Program

/-! ### Users, chats and messages -/

structure TgUser where
  id : Int
  firstName : Text
  username : Text
deriving DecidableEq, Repr

structure TgChat where
  id : Int
  username : Text
deriving DecidableEq, Repr

structure Message where
  messageId : Int
  from_ : TgUser
  chat : TgChat
  /-- Empty for a message without text. -/
  text : Text := []
  /-- The file ids of one photo, smallest to biggest. -/
  photo : List Text := []
  document : Option Text := none
deriving DecidableEq, Repr

structure CallbackQuery where
  id : Text
  from_ : TgUser
  /-- The message the button was under, and its chat. -/
  messageId : Int
  chat : TgChat
  /-- Chosen by the client. -/
  data : Text
deriving DecidableEq, Repr

/-- The message a successful send returns. -/
structure Sent where
  messageId : Int
  chatId : Int
deriving DecidableEq, Repr

/-- A chat, by its number or by the text of a setting. -/
inductive Receiver where
  | user (id : Int)
  | named (id : Text)
deriving DecidableEq, Repr

inductive Keyboard where
  | none | ganzel | developer | managePhotos | consumer | contractor | staff | tekla
  | startSolving | startSolvingWPhoto | taskClosing | taskDone | goDashboard
  | rejectOrApprove (approveCallbackData rejectCallbackData : Text)
  | contactContractor (url : Text)
deriving DecidableEq, Repr

/-! ### Effects -/

inductive Effect where
  | sendMessage (receiver : Receiver) (text : Text) (kb : Keyboard := .none) (parseMode : Text := [])
  | sendSticker (receiver : Receiver) (file : Text)
  | sendPhoto (receiver : Receiver) (file caption : Text) (kb : Keyboard)
  | sendMediaGroup (chat : Int) (photos : List Text) (replyTo : Int)
  | editMessageReplyMarkup (chat messageId : Int) (kb : Keyboard)
  | deleteMessage (chat messageId : Int)
  | answerCallbackQuery (query : Text) (text : Text)
  | getFile (fileId : Text)
  | download (url : Text)
  /-- `sendMessage` to a receiver and with a text the developer chose. -/
  | sendAsBot (receiver : Int) (text : Text)
  | broadcastFile (receivers : List Int)
  | runCommand (program : Text) (parameters : Option Text)
  | reboot (script : Text)
  | insertConsumer (id : Int) (username : Text)
  | insertContractor (row : ContractorRow)
  | setMsiVersion (value : Text)
  | selectMasterKey (tgId : Text)
  | insertMasterKey (row : MasterKeyRow)
  | insertIssue (table : IssueTable) (row : IssueRow)
  | updateIssue (idCard : Text)
  | deleteIssue (idCard : Text)
  | selectRows
  | commit
  | createNewCard (listId : Text) (body : Text)
  | addImgToCard (card path : Text)
  | getCard (card : Text)
  | changeCardColor (card color : Text)
  | archivingCard (card : Text)
  | createTask (body : Text)
  | addAttach (path key : Text)
  | getTaskInfo (key : Text)
  | sendEmail (recipient url : Text)
  | runScript (path : Text)
  /-- `create_new_issue` was entered with this task. -/
  | createNewIssue (task : NewTask)
  /-- A pending key request was approved or rejected. -/
  | decideKey (approved : Bool) (requester : Int)
deriving DecidableEq, Repr

/-! ### Failures -/

/-- Exceptions, as far as the code tells them apart: a `TgException`, any other
`std::exception`. -/
inductive Exn where
  | tgException | stdException
deriving DecidableEq, Repr

/-- Why a computation did not complete. Only an exception can be caught. -/
inductive Stop where
  | throws (e : Exn)
  /-- An exception left the body of a thread: `std::terminate`. -/
  | terminate
  /-- A null or dangling session pointer was dereferenced. -/
  | badAccess
  /-- A read past the end of a vector. -/
  | outOfRange
deriving DecidableEq, Repr

/-- The process is gone. -/
def Stop.fatal : Stop → Bool
  | .throws _ => false
  | _ => true

section Catching
variable {σ α : Type}

/-- `catch (const std::exception&)`. -/
def catching (m : EStateM Stop σ α) (h : Exn → EStateM Stop σ α) : EStateM Stop σ α :=
  handling m fun
    | .throws e => h e
    | stop => throw stop

/-- `catch (TgException e)`. -/
def catchingTg (m h : EStateM Stop σ α) : EStateM Stop σ α :=
  handling m fun
    | .throws .tgException => h
    | stop => throw stop

/-- A thread whose scope has nothing more to do: it is joined at once. An exception in it ends the process. -/
def inThread (m : EStateM Stop σ α) : EStateM Stop σ α :=
  handling m fun
    | .throws _ => throw .terminate
    | stop => throw stop

/-- A thread that is joined at the end of the scope it was created in, and what is done there. -/
def besideThread (ahead : Nat → Nat) (thread starter : List (EStateM Stop σ Unit)) : EStateM Stop σ Unit :=
  beside inThread (fun stop => !stop.fatal) ahead thread starter

variable {Q : α → σ → Prop} {E : Stop → σ → Prop} {m : EStateM Stop σ α} {s : σ}

@[simp] theorem wp_catching (h : Exn → EStateM Stop σ α) :
    wp (catching m h) Q E s ↔
      wp m Q (fun stop s' => match stop with
        | .throws e => wp (h e) Q E s'
        | stop => E stop s') s := by
  rw [catching, wp_handling]
  exact wp_congr fun stop s' => by cases stop <;> exact Iff.rfl

/-- What fails with an exception goes to the handler. -/
theorem wp_catching_of {R : σ → Prop} {h : Exn → EStateM Stop σ α}
    (hm : wp m Q (fun stop s' => stop.fatal = false ∧ R s') s)
    (hR : ∀ e s', R s' → wp (h e) Q E s') : wp (catching m h) Q E s := by
  rw [wp_catching]
  refine wp_mono hm (fun _ _ => id) fun stop s' hs => ?_
  cases stop with
  | throws e => exact hR e s' hs.2
  | _ => cases hs.1

@[simp] theorem wp_catchingTg (h : EStateM Stop σ α) :
    wp (catchingTg m h) Q E s ↔
      wp m Q (fun stop s' => match stop with
        | .throws .tgException => wp h Q E s'
        | stop => E stop s') s := by
  rw [catchingTg, wp_handling]
  exact wp_congr fun stop s' => by
    cases stop with
    | throws e => cases e <;> exact Iff.rfl
    | _ => exact Iff.rfl

@[simp] theorem wp_inThread :
    wp (inThread m) Q E s ↔
      wp m Q (fun stop s' => match stop with
        | .throws _ => E .terminate s'
        | stop => E stop s') s := by
  rw [inThread, wp_handling]
  exact wp_congr fun stop s' => by cases stop <;> exact Iff.rfl

end Catching

/-! ### Calls -/

/-- What all parts of a process share. -/
structure Shared where
  db : Db := {}
  vConsumers : List Int := []
  vContractors : List Contractor := []
  vAllowedContractors : List Int := []
  /-- Who was mailed about which issue. -/
  mNotifiedAssignee : List (Text × Text) := []
  trace : List Effect := []

def Shared.log (s : Shared) (e : Effect) : Shared := {s with trace := s.trace ++ [e]}

theorem Shared.filter_log (p : Effect → Bool) (s : Shared) (e : Effect) :
    (s.log e).trace.filter p = s.trace.filter p ++ if p e then [e] else [] := by
  rw [Shared.log, List.filter_append, List.filter_singleton, Bool.cond_eq_ite]

theorem Shared.filterMap_log {β : Type} (f : Effect → Option β) (s : Shared) (e : Effect) :
    (s.log e).trace.filterMap f = s.trace.filterMap f ++ (f e).toList := by
  rw [Shared.log, List.filterMap_append]
  cases h : f e with
  | none => rw [List.filterMap_cons_none h, List.filterMap_nil, Option.toList_none]
  | some b => rw [List.filterMap_cons_some h, List.filterMap_nil, Option.toList_some]

abbrev ServiceM := EStateM Stop Shared

/-- The answer to a call that may throw. -/
abbrev Answer := Reply Exn

abbrev Sending := Answer Sent

section
variable {α : Type}

def log (e : Effect) : ServiceM Unit := modify fun s => s.log e

def call (e : Effect) (r : Answer α) : ServiceM α := do
  log e
  match r with
  | .returns a => pure a
  | .throws x => throw (.throws x)

/-- A statement, and what it does to the tables when it succeeds. -/
def sql (e : Effect) (r : Answer Bool) (f : Db → Db) : ServiceM Bool := do
  let ok ← call e r
  guarded ok (modify fun s => {s with db := f s.db})
  pure ok

/-- The rows a SELECT yields: none when it fails. -/
def select (r : Answer Bool) (rows : Db → List α) : ServiceM (List α) := do
  let ok ← call .selectRows r
  let s ← get
  pure (if ok then rows s.db else [])

end

section
variable {α : Type} {Q : α → Shared → Prop} {E : Stop → Shared → Prop} {s : Shared}

@[simp] theorem wp_log (e : Effect) {Q : Unit → Shared → Prop} :
    wp (log e) Q E s ↔ Q () (s.log e) := Iff.rfl

@[simp] theorem wp_call (e : Effect) (r : Answer α) :
    wp (call e r) Q E s ↔
      (∀ a, r = .returns a → Q a (s.log e)) ∧ ∀ x, r = .throws x → E (.throws x) (s.log e) := by
  cases r with
  | returns a => simp [call]
  | throws x => simp [call]

@[simp] theorem wp_sql (e : Effect) (r : Answer Bool) (f : Db → Db) {Q : Bool → Shared → Prop} :
    wp (sql e r f) Q E s ↔
      (r = .returns true → Q true {s.log e with db := f (s.log e).db}) ∧
      (r = .returns false → Q false (s.log e)) ∧
      ∀ x, r = .throws x → E (.throws x) (s.log e) := by
  cases r with
  | returns ok => cases ok <;> simp [sql]
  | throws x => simp [sql]

@[simp] theorem wp_select (r : Answer Bool) (rows : Db → List α) {Q : List α → Shared → Prop} :
    wp (select r rows) Q E s ↔
      (r = .returns true → Q (rows (s.log .selectRows).db) (s.log .selectRows)) ∧
      (r = .returns false → Q [] (s.log .selectRows)) ∧
      ∀ x, r = .throws x → E (.throws x) (s.log .selectRows) := by
  cases r with
  | returns ok => cases ok <;> simp [select]
  | throws x => simp [select]

end

/-! ### What the settings and the tables read at the start fix -/

structure Config where
  supportTgId : Text := []
  distributionList : Text := []
  reworkList : Text := []
  teklaAdminTgId : Text := []
  jiraBrowseUrl : Text := []
  jiraBaseUrl : Text := []
  tgBotToken : Text := []
  sessionTtlHours : Text := []
  stickerNoTasks : Text := []
  scriptPathReboot : Text := []
  scriptPathGetmemChanserv : Text := []
  scriptPathListchecker : Text := []
  vStaff : List Int := []
  stickerList : List Text := []

def Config.isDeveloper (cfg : Config) (id : Int) : Bool := id = atol cfg.supportTgId

def Config.isStaff (cfg : Config) (id : Int) : Bool := id ∈ cfg.vStaff

/-! ### Messages several parts send -/

/-- `send_msg_to_support` with a text and, in two of its forms, a keyboard. -/
def sendMsgToSupport (cfg : Config) (info : Text) (kb : Keyboard) (r : Sending) : ServiceM Unit := do
  let _ ← call (.sendMessage (.named cfg.supportTgId) info kb) r

/-- The form of `send_msg_to_support` that adds the task. -/
def sendTaskToSupport (cfg : Config) (info : Text) (task : NewTask) (kb : Keyboard) (r : Sending) :
    ServiceM Unit :=
  sendMsgToSupport cfg
    (info ++ of " " ++ task.section_ ++ of " " ++ task.project ++ of " " ++ task.subj ++ of " " ++
      task.creationDate ++ task.description ++ of " от " ++ task.consumerName) kb r

/-- To every member of staff; only a `TgException` is passed over. -/
def sendMsgToStaff (cfg : Config) (text : Text) (kb : Keyboard) (r : Nat → Sending) : ServiceM Unit :=
  forEach cfg.vStaff.zipIdx fun (employee, i) =>
    catchingTg (do let _ ← call (.sendMessage (.user employee) text kb) (r i)) (pure ())

/-- The same, message by message. -/
def noticesToStaff (cfg : Config) (text : Text) (kb : Keyboard) (r : Nat → Sending) : List (ServiceM Unit) :=
  cfg.vStaff.zipIdx.map fun (employee, i) =>
    catchingTg (do let _ ← call (.sendMessage (.user employee) text kb) (r i)) (pure ())

/-- The sending itself is commented out in the source; nothing in the loop throws. -/
def sendDocumentToAll (receivers : List Int) : ServiceM Unit := log (.broadcastFile receivers)

def reloadConsumersList (r : Answer Bool) : ServiceM Unit := do
  modify fun s => {s with vConsumers := []}
  let rows ← select r fun db => db.consumers.map Prod.fst
  modify fun s => {s with vConsumers := rows}

/-- The ids allowed so far are kept. -/
def reloadContractorsList (r : Answer Bool) : ServiceM Unit := do
  modify fun s => {s with vContractors := []}
  let rows ← select r Db.contractors
  let read := rows.map fun row =>
    { id := toLongLong row.id, name := row.name, link := row.link, trelloList := row.trelloList :
      Contractor }
  modify fun s =>
    { s with vContractors := read, vAllowedContractors := s.vAllowedContractors ++ read.map (·.id) }

def deleteIssueFromDb (idCard : Text) (r : Answer Bool) : ServiceM Bool :=
  sql (.deleteIssue idCard) r fun db => db.deleteIssue idCard

end Chanserv
