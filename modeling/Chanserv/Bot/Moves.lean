import Chanserv.Bot.Dispatch
import Chanserv.Notes

/-! What an update can do to the session of the user who sent it.

`Moved` says it once, for all handlers: how the session's task may change, and
which notable effects go with the change. Access control, the dialogs and the
rest of what holds over runs are read off this relation and not off the
handlers. -/
namespace Chanserv
open Text Program

/-! ### Dialogs and their openings -/

inductive Dialog where
  | task | family | tekla
deriving DecidableEq, Repr

/-- The task a dialog starts from. The one for Tekla does not clear what was there. -/
def Dialog.start : Dialog → NewTask → NewTask
  | task, _ => {type := of "BIMTASK", stat := taskSectionStep1}
  | family, _ => {type := of "FAMILY", subj := of "Создать семейство", stat := familyUnitStep1}
  | tekla, t =>
    { t with
      type := of "TEKLA"
      teklaCardCaption := of "Проблемы"
      section_ := of "Проблемы"
      stat := taskSubjStep3 }

/-- The dialog a click opens: a menu must be the last one shown, and the calls made
before the first question is asked must return. -/
def opening (env : UpdateEnv) (u : UserDispatcher) : Update → Option Dialog
  | .callback q =>
    match buttonOf q.data with
    | some .newTask =>
      if u.clickedMsgId = q.messageId ∧ env.callback.prompt.Normal then some .task else none
    | some .newFamily =>
      if u.clickedMsgId = q.messageId ∧ env.callback.prompt.Normal then some .family else none
    | some .teklaGeneralIssue =>
      if env.callback.deleteMessage.Normal ∧ env.callback.prompt.Normal then some .tekla else none
    | _ => none
  | _ => none

/-- The click shows the menu for Tekla in place of the last one. -/
def entersTekla (env : UpdateEnv) (u : UserDispatcher) : Update → Prop
  | .callback q =>
    buttonOf q.data = some .teklaEnterMenu ∧ u.clickedMsgId = q.messageId ∧
      env.callback.editMarkup.Normal
  | _ => False

instance (env : UpdateEnv) (u : UserDispatcher) (x : Update) : Decidable (entersTekla env u x) := by
  cases x <;> simp only [entersTekla] <;> infer_instance

/-- The question a message at a step answers. -/
def questionAt (stat : Nat) (text : Text) : Option Question :=
  match stat with
  | revitMasterKeyReasonStep1 => some masterKeyReason
  | taskSectionStep1 => some taskSection
  | taskProjectStep2 => some taskProject
  | taskSubjStep3 => some taskSubj
  | taskDescrStep4 => some taskDescr
  | familyUnitStep1 => some familyUnit
  | familyCategoryStep2 => some familyCategory
  | familyDescrStep3 => some familyDescr
  | familyProjectStep4 => some familyProject
  | sharedFirstnameStep5 => if text = [] then none else some familyProject
  | _ => none

/-- The task with the customer's name, as `create_new_issue` gets it. -/
def completed (m : Message) (t : NewTask) : NewTask :=
  { t with
    consumerName := truncateMsgFromUser m.text 150
    consumerTgId := m.chat.id
    consumerTgUsernameLink := m.chat.username
    stat := sharedFinalStep7 }

/-- The task `create_new_issue` is started with, when a message arrives at a step. -/
def submitted (m : Message) (t : NewTask) : Option NewTask :=
  if t.stat = sharedSeparateTeklaFromBimStep6 ∧ m.text ≠ [] then some (completed m t)
  else if t.stat = sharedFinalStep7 then some t
  else none

/-! ### The relation -/

/-- The steps of developers and staff. -/
def serviceSteps : List Nat :=
  [developerSendMsgAsBot, developerSendMsgToGpt, developerRunHostCommand, staffSetNewMsiVersion, staffAddNewContractor]

/-- A user with the roles `may` sends an update; `opens` is the dialog it opens, `menu`
says whether it shows the menu for Tekla. The task `t` of the session becomes another
one, with these notable effects, and the handler stops so. -/
inductive Moved (may : RequiredRole → Prop) (opens : Option Dialog) (menu : Prop) (t : NewTask) :
    Update → Option Stop → List Effect → NewTask → Prop
  | kept {x r} (h : opens = none) : Moved may opens menu t x r [] t
  /-- The process is gone. -/
  | halted {x} : Moved may opens menu t x (some .outOfRange) [] t
  | cleared {x r} (h : opens = none) : Moved may opens menu t x r [] {}
  /-- A menu was spent, but the first question could not be sent. -/
  | halfOpened {x r} {d : Dialog} (h : opens = none) (hd : d ≠ .tekla) :
      Moved may opens menu t x r [] {d.start {} with stat := 0}
  | opened {x r d} (h : opens = some d) : Moved may opens menu t x r [] (d.start t)
  | answered {m r question stat} (h : questionAt t.stat m.text = some question)
      (hstat : stat = t.stat ∨ stat = question.next) :
      Moved may opens menu t (.message m) r []
        {question.record (question.clean m.text) t with stat}
  | named {m r stat} (h : t.stat = revitMasterKeyFirstnameStep2) (hstat : stat = t.stat ∨ stat = 0) :
      Moved may opens menu t (.message m) r []
        {t with consumerName := cleanDescription m.text, stat}
  | photographed {m r vLocalFilePaths photoIDs vDocuIds} (h : t.stat = sharedFirstnameStep5)
      (htext : m.text = []) :
      Moved may opens menu t (.message m) r [] {t with vLocalFilePaths, photoIDs, vDocuIds}
  | filed {m r task t'} (h : submitted m t = some task)
      (ht : t' = {} ∨ (∃ stop, r = some stop ∧ stop.fatal) ∧ t'.stat = sharedFinalStep7) :
      Moved may opens menu t (.message m) r [.createNewIssue task] t'
  | served {m r e t'} (he : e.privilege = some (roleForStep t.stat)) (hmay : may (roleForStep t.stat))
      (ht : t' = t ∨ t' = {}) :
      Moved may opens menu t (.message m) r [e] t'
  | commanded {q r e role} (h : opens = none) (he : e.privilege = some role) (hmay : may role) :
      Moved may opens menu t (.callback q) r [e] t
  | serviceOpened {q r type stat} (h : opens = none) (hmay : may (roleForStep stat))
      (hstat : stat ∈ serviceSteps) :
      Moved may opens menu t (.callback q) r [] {t with type, stat}
  | keyAsked {q r} (h : opens = none) :
      Moved may opens menu t (.callback q) r [] {stat := revitMasterKeyReasonStep1}
  | photosDone {q r} (h : opens = none) (hbutton : buttonOf q.data = some .noMorePhotos)
      (hstat : t.stat = sharedFirstnameStep5) :
      Moved may opens menu t (.callback q) r [] {t with stat := sharedSeparateTeklaFromBimStep6}
  | teklaMenu {q r} (h : opens = none) (hmenu : menu) :
      Moved may opens menu t (.callback q) r [] {t with subj := of "Tekla"}

/-- The two lists `get_my_issues` fills are of one length. -/
def Lockstep (u : UserDispatcher) : Prop := u.recentMsgs.length = u.recentMsgIds.length

/-- What holds between the chats before and after an update. -/
structure After (may : RequiredRole → Prop) (env : UpdateEnv) (x : Update) (c : Chat)
    (r : Option Stop) (c' : Chat) : Prop where
  moved : ∃ ns, c'.sh.notes = c.sh.notes ++ ns ∧
    Moved may (opening env c.ud x) (entersTekla env c.ud x) c.ud.jiraTask x r ns c'.ud.jiraTask
  lockstep : Lockstep c.ud → Lockstep c'.ud
  access : r ≠ some .badAccess

theorem After.of {may : RequiredRole → Prop} {env : UpdateEnv} {x : Update} {c c' : Chat}
    {r : Option Stop} {ns : List Effect} (hnotes : c'.sh.notes = c.sh.notes ++ ns)
    (hmoved : Moved may (opening env c.ud x) (entersTekla env c.ud x) c.ud.jiraTask x r ns c'.ud.jiraTask)
    (hmsgs : c'.ud.recentMsgs = c.ud.recentMsgs) (hids : c'.ud.recentMsgIds = c.ud.recentMsgIds)
    (haccess : r ≠ some .badAccess) : After may env x c r c' where
  moved := ⟨ns, hnotes, hmoved⟩
  lockstep h := by rw [Lockstep, hmsgs, hids]; exact h
  access := haccess

/-- Every run of `m` from `c` is one of the moves. -/
def Leads (may : RequiredRole → Prop) (env : UpdateEnv) (x : Update) (m : ChatM Unit) (c : Chat) :
    Prop :=
  wp m (fun _ c' => After may env x c none c') (fun stop c' => After may env x c (some stop) c') c

end Chanserv
