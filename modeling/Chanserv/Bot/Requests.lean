import Chanserv.Bot.Frames

/-! Programs that leave key requests alone.

A request is the reason in a session, and a key is a row of its table. Rows are
written when a request is approved, and nowhere else; whose a session is does not
change. Most programs leave the reason as it was, too. -/
namespace Chanserv
open Text Program

/-! ### The views -/

/-- The table of keys. -/
def Shared.keys (s : Shared) : List MasterKeyRow := s.db.masterKeys

/-- The reason of the request a session holds; empty without one. -/
def Chat.reason (c : Chat) : Text := c.ud.jiraTask.keyReason

/-- Whose the session is, and the table of keys. -/
def Chat.owned (c : Chat) : Int × List MasterKeyRow := (c.ud.chatUserTgId, c.sh.keys)

/-- The same, with the request. -/
def Chat.request (c : Chat) : Text × Int × List MasterKeyRow := (c.reason, c.owned)

instance : SeesTables Shared.keys := ⟨fun h => by rw [Shared.keys, Shared.keys, h]⟩

section
variable {α : Type}

theorem frames_keys {e : Effect} {r : Answer Bool} {f : Db → Db} (hf : ∀ db, (f db).masterKeys = db.masterKeys) :
    Frames Shared.keys (sql e r f) :=
  frames_tables fun s => hf s.db

instance {m : ServiceM α} [hm : Frames Shared.keys m] : Frames Chat.request (service m) :=
  ⟨hm.keeps.zoom fun _ _ hs => Prod.ext rfl (Prod.ext rfl hs)⟩

theorem frames_ud {f : UserDispatcher → UserDispatcher} (howner : ∀ u, (f u).chatUserTgId = u.chatUserTgId)
    (hreason : ∀ u, (f u).jiraTask.keyReason = u.jiraTask.keyReason) : Frames Chat.request (modifySession f) :=
  ⟨.writes fun c => Prod.ext (hreason c.ud) (Prod.ext (howner c.ud) rfl)⟩

theorem frames_task {f : NewTask → NewTask} (hf : ∀ t, (f t).keyReason = t.keyReason) :
    Frames Chat.request (modifyTask f) :=
  frames_ud (fun _ => rfl) fun u => hf u.jiraTask

/-- Whatever is written into a session, it stays its user's. -/
theorem frames_owner {f : UserDispatcher → UserDispatcher} (howner : ∀ u, (f u).chatUserTgId = u.chatUserTgId) :
    Frames Chat.owned (modifySession f) :=
  ⟨.writes fun c => Prod.ext (howner c.ud) rfl⟩

instance (f : NewTask → NewTask) : Frames Chat.owned (modifyTask f) := frames_owner fun _ => rfl

instance {m : ChatM α} [hm : Frames Chat.request m] : Frames Chat.owned m where
  keeps c := wp_mono (hm.keeps c) (fun _ _ h => congrArg Prod.snd h) fun _ _ h => ⟨trivial, congrArg Prod.snd h.2⟩

end

/-! ### Messages and statements -/

section
variable {α : Type} {cfg : Config}

instance (denv : DispatcherEnv) (user : TgUser) : Frames Shared.keys (addConsumerToDb denv user) :=
  .addsConsumer inferInstance inferInstance (fun _ _ => rfl) denv

instance (idCard : Text) (r : Answer Bool) : Frames Shared.keys (deleteIssueFromDb idCard r) := by
  unfold deleteIssueFromDb
  exact frames_keys fun _ => rfl

instance (task : NewTask) (table : IssueTable) (env : CreateIssueEnv) :
    Frames Shared.keys (writeIssueToDb task table env) := by
  have hinsert := @frames_keys (.insertIssue table (rowOfTask task)) env.insertIssue
    (fun db => db.insertIssue table (rowOfTask task)) fun _ => by cases table <;> rfl
  unfold writeIssueToDb
  infer_instance

end

/-! ### Filing a task -/

instance : SeesFiled Chat.request where
  of_known {c sh} h := by
    have hkeys : sh.keys = c.sh.keys := SeesTables.of_db (congrArg Prod.fst h)
    rw [Chat.request, Chat.request, Chat.owned, Chat.owned, hkeys]
    rfl
  lastError _ _ := rfl
  createdCardId _ _ := rfl
  idCard _ _ := rfl

section
variable {cfg : Config} {env : CreateIssueEnv} {head : Text} {message : Message}

instance : Frames Chat.request (fileRow cfg env) := by
  unfold fileRow
  infer_instance

instance : Frames Chat.request (fileOnBoard cfg env head) := by
  unfold fileOnBoard
  infer_instance

instance : Frames Chat.request (submitTask cfg env message) := by
  have hdate : Frames Chat.request (modifyTask fun t => {t with creationDate := env.creationDate}) :=
    frames_task fun _ => rfl
  have hescape : Frames Chat.request (modifySession fun u => escapeAll {u with createdCardId := []}) :=
    frames_ud (fun _ => rfl) fun _ => rfl
  have hrest (head : Text) : Frames Chat.request (do
      thankUser cfg env message
      fileInJira cfg env head) := inferInstance
  unfold submitTask
  infer_instance

instance : Frames Chat.owned (createNewIssue cfg env message) := by
  unfold createNewIssue
  infer_instance

end

/-! ### Messages -/

section
variable {cfg : Config} {env : SmallTalkEnv} {m : Message}

instance (question : Question) (receiver : Int) (text : Text) : Frames Chat.owned (question.ask env receiver text) := by
  unfold Question.ask
  infer_instance

instance : Frames Chat.request (masterKeyFirstname cfg env m) := by
  have hname : Frames Chat.request (modifyTask fun t => {t with consumerName := cleanDescription m.text}) :=
    frames_task fun _ => rfl
  have hstat : Frames Chat.request (modifyTask fun t => {t with stat := 0}) := frames_task fun _ => rfl
  have hbeside (text : Text) (kb : Keyboard) : Frames Shared.keys (besideThread env.ahead
      (noticesToStaff cfg text kb env.staff)
      [do let _ ← call (.sendMessage (.user m.chat.id) (of "Ожидайте одобрения")) env.prompt]) :=
    .besideNotice inferInstance (List.forall_mem_singleton.mpr inferInstance)
  unfold masterKeyFirstname
  infer_instance

instance : Frames Chat.owned (staffAddContractor env m) := by
  have hinsert (row : ContractorRow) := @frames_keys (.insertContractor row) env.insertContractor
    (fun db => {db with contractors := db.contractors ++ [row]}) fun _ => rfl
  unfold staffAddContractor
  dsimp only
  split <;> infer_instance

instance : Frames Chat.owned (developerMsgAsBot env m) := by
  unfold developerMsgAsBot
  infer_instance

instance : Frames Chat.request (developerHostCommand cfg env m) := by
  unfold developerHostCommand
  refine .bind inferInstance fun output => ?_
  cases output <;> infer_instance

instance : Frames Chat.owned (staffSetMsiVersion env m) := by
  have hset := @frames_keys (.setMsiVersion m.text) env.setMsiVersion
    (fun db => {db with msiActualVersion := m.text}) fun _ => rfl
  unfold staffSetMsiVersion
  infer_instance

instance : Frames Chat.owned (sharedSeparateTeklaFromBim cfg env m) := by
  unfold sharedSeparateTeklaFromBim
  infer_instance

instance (filePath uuid : Text) (r : Answer Download) : Frames Chat.request (receiveFile cfg filePath uuid r) := by
  have hpath (outcome : Download) : Frames Chat.request (modifyTask fun t =>
      {t with vLocalFilePaths := t.vLocalFilePaths ++ [downloadImageFromUrl outcome uuid filePath]}) :=
    frames_task fun _ => rfl
  unfold receiveFile
  infer_instance

instance (penv : PhotosEnv) : Frames Chat.request (receivePhotos cfg penv m) := by
  have hphoto : Frames Chat.request (modifyTask fun t =>
      {t with photoIDs := t.photoIDs ++ biggestPhoto m ++ of "\\n"}) := frames_task fun _ => rfl
  have hdocument (fileId : Text) : Frames Chat.request (modifyTask fun t =>
      {t with vDocuIds := t.vDocuIds ++ [fileId ++ of "\n"]}) := frames_task fun _ => rfl
  unfold receivePhotos
  refine .catching (.bind inferInstance fun _ => ?_) inferInstance
  split <;> infer_instance

/-- The `switch`: whatever the step, the session stays its user's. -/
instance (stat : Nat) : Frames Chat.owned (answerStep cfg env m stat) := by
  unfold answerStep sharedFirstname
  split <;> infer_instance

instance : Frames Chat.owned (smallTalk cfg env m) := by
  unfold smallTalk
  infer_instance

end

/-! ### Commands and clicks -/

section
variable {cfg : Config} {m : Message}

instance (cenv : CommandEnv) (prompt : Text) (kb : Keyboard) : Frames Chat.request (sendMenu cenv m prompt kb) := by
  have hclicked (clicked : Sent) :
      Frames Chat.request (modifySession fun u => {u with clickedMsgId := clicked.messageId}) :=
    frames_ud (fun _ => rfl) fun _ => rfl
  unfold sendMenu
  infer_instance

instance (cenv : CommandEnv) : Frames Chat.request (startMenu cfg cenv m) := by
  unfold startMenu
  infer_instance

end

section
variable {cfg : Config} {env : CallbackEnv} {q : CallbackQuery}

instance (text : Text) (kb : Keyboard) (parseMode : Text) (r : Sending) :
    Frames Chat.request (say q text kb parseMode r) := by
  unfold say
  infer_instance

instance {m : ChatM Unit} [Frames Chat.request m] : Frames Chat.request (ifClicked q m) := by
  unfold ifClicked
  infer_instance

instance (prompt type : Text) (stat : Nat) : Frames Chat.request (openService env q prompt type stat) := by
  have hopened : Frames Chat.request (modifyTask fun t => {t with type, stat}) := frames_task fun _ => rfl
  unfold openService
  infer_instance

instance : Frames Chat.owned (onReqMasterKey env q) := by
  unfold onReqMasterKey ifClicked
  infer_instance

instance : Frames Chat.request onSendFile := by
  unfold onSendFile
  infer_instance

instance : Frames Chat.request (onNoMorePhotos env q) := by
  have hstat : Frames Chat.request (modifyTask fun t => {t with stat := sharedSeparateTeklaFromBimStep6}) :=
    frames_task fun _ => rfl
  unfold onNoMorePhotos
  infer_instance

instance : Frames Chat.request (onTeklaEnterMenu env q) := by
  have hsubj : Frames Chat.request (modifyTask fun t => {t with subj := of "Tekla"}) := frames_task fun _ => rfl
  unfold onTeklaEnterMenu
  infer_instance

instance : Frames Chat.request (onTeklaGeneralIssue env q) := by
  have htask : Frames Chat.request (modifyTask fun t => {t with
      type := of "TEKLA", teklaCardCaption := of "Проблемы", section_ := of "Проблемы", stat := taskSubjStep3}) :=
    frames_task fun _ => rfl
  unfold onTeklaGeneralIssue
  infer_instance

instance : Frames Chat.owned (onTeklaBack env q) := by
  unfold onTeklaBack ifClicked
  infer_instance

instance (issue : PgdbIssue) : Frames Chat.request (onStartSolving env q issue) := by
  have hclicked : Frames Chat.request (modifySession fun u => {u with clickedMsgId := q.messageId}) :=
    frames_ud (fun _ => rfl) fun _ => rfl
  unfold onStartSolving
  infer_instance

instance (issue : PgdbIssue) : Frames Chat.request (onTaskClosing cfg env q issue) := by
  have hclicked : Frames Chat.request (modifySession fun u => {u with clickedMsgId := 0}) :=
    frames_ud (fun _ => rfl) fun _ => rfl
  have hbeside : Frames Shared.keys (besideThread env.ahead
      (noticesToStaff cfg (closingNotice issue) .goDashboard env.staff)
      [ archivingCard issue.idCard env.archive,
        do let _ ← deleteIssueFromDb issue.idCard env.deleteIssue ]) :=
    .besideNotice inferInstance
      (List.forall_mem_cons.mpr ⟨inferInstance, List.forall_mem_singleton.mpr inferInstance⟩)
  unfold onTaskClosing
  infer_instance

instance (f : NewTask → NewTask) : Frames Chat.owned (spendMenu q f) := by
  have hspend : Frames Chat.owned (modifySession fun u => {u with clickedMsgId := 0, jiraTask := f {}}) :=
    frames_owner fun _ => rfl
  unfold spendMenu
  infer_instance

instance : Frames Chat.request (clickedIssue q) := by
  unfold clickedIssue
  refine .bind inferInstance fun c => ?_
  split <;> infer_instance

instance (ienv : MyIssuesEnv) (receiver : Int) : Frames Chat.request (showMyIssues cfg ienv receiver) := by
  have hforget : Frames Chat.request (modifySession forgetIssues) := frames_ud (fun _ => rfl) fun _ => rfl
  have hremember (issue : PgdbIssue) (sent : Sent) :
      Frames Chat.request (modifySession (rememberIssue issue sent)) :=
    frames_ud (fun _ => rfl) fun _ => rfl
  have hrow (x : IssueRow × Nat) : Frames Chat.request (do
      let sent ← service (sendIssue receiver (issueOfRow (x.2 + 1) x.1) (ienv.show_ x.2))
      modifySession (rememberIssue (issueOfRow (x.2 + 1) x.1) sent)) := inferInstance
  unfold showMyIssues showRows
  refine .bind inferInstance fun rows => .bind hforget fun _ => .bind ⟨.forEach fun x _ => ?_⟩ fun _ => inferInstance
  exact (hrow x).keeps

end

end Chanserv
