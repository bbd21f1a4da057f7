import Chanserv.Bot.Threads

/-! Failures of external services, and the process.

The main loop catches what its handlers throw. A thread and a task of the queue
have no such guard: an exception there ends the process. `UpdateSafe` and
`TaskSafe` say which answers of the world spare the code this, at each place
where it is at stake; a run that meets them goes on. -/
namespace Chanserv
open Text Program

/-! ### The conditions -/

section
variable (cfg : Config)

/-- What a message needs, in a session with this task. -/
structure TalkSafe (env : SmallTalkEnv) (m : Message) (t : NewTask) : Prop where
  key : t.stat = revitMasterKeyFirstnameStep2 → StaffSpared cfg env.staff
  filing : ∀ task, submitted m t = some task → FilingSafe cfg env.createIssue task

/-- The key an approval hands out; none when a statement fails. -/
def issuedKey (env : KeyEnv) (db : Db) (u : UserDispatcher) : Text :=
  if env.selectKey = .returns true then
    match db.masterKeys.find? fun row => row.tgId = itoa u.chatUserTgId ∧ row.isActivated = false with
    | some row => row.masterKey
    | none => if env.insertKey = .returns true ∧ env.commit.Normal then env.generatedKey else []
  else []

/-- What a decision about a request needs, when there is one. -/
def KeySafe (env : KeyEnv) (q : CallbackQuery) (w : World) : Prop :=
  ∀ requester, requesterId q.data = some requester → requester ≠ 0 →
    ∀ u, w.session requester = some u → u.jiraTask.keyReason ≠ [] → env.decision.Normal →
      (isApprove q.data → issuedKey env w.sh.db u ≠ []) → StaffSpared cfg env.staff

/-- What a click needs, in a session. -/
structure ClickSafe (env : CallbackEnv) (q : CallbackQuery) (u : UserDispatcher) (db : Db) : Prop where
  list : buttonOf q.data = some .myTasks → u.clickedMsgId = q.messageId →
    ListSafe cfg env.myIssues db q.from_.id
  closing : buttonOf q.data = some .taskClosing → u.clickedMsgId ≠ 0 → env.editMarkup.Normal →
    env.alert.Normal → (∃ issue, getSelectedIssueId q.messageId u.pgdbIssues u.recentMsgIds
      u.recentMsgs = some (some issue)) → StaffSpared cfg env.staff

/-- What an update needs. -/
def UpdateSafe (env : UpdateEnv) (w : World) : Update → Prop
  | .command _ _ => True
  | .message m => ∀ t, facing cfg env w m = some t → TalkSafe cfg env.smallTalk m t
  | .callback q => cfg.hasRole q.from_.id (roleForCallback q.data) →
    (isApprove q.data ∨ isReject q.data → KeySafe cfg env.callback.key q w) ∧
      ∀ u, w.session q.from_.id = some u → ClickSafe cfg env.callback q u w.sh.db

/-- What a task of the queue needs: no call may throw, a request must have a path, and
the script must print a number. -/
def TaskSafe (env : TaskEnv) : Task → Prop
  | .jiraWebhook requestUrl =>
    env.notice.Normal ∧ requestUrl ≠ [] ∧ (isUpdate requestUrl → env.taskInfo.issue.Normal)
  | .qtBgWorker => (∃ n, env.memSize = .returns (some n)) ∧ env.notice.Normal

/-- The updates of a poll, one after another, until an exception ends the poll. -/
def UpdatesSafe : List (UpdateEnv × Update) → World → Prop
  | [], _ => True
  | (env, x) :: rest, w =>
    UpdateSafe cfg env w x ∧ (failure (handleUpdate cfg env x) w = none →
      UpdatesSafe rest (final (handleUpdate cfg env x) w))

/-- The state the poll of a turn begins in. -/
def atPoll (turn : Turn) (w : World) : World :=
  final (do
    modify fun w => {w with mMainTasks := w.mMainTasks ++ turn.posted}
    runPending cfg turn.tasks) w

structure TurnSafe (turn : Turn) (w : World) : Prop where
  tasks : ∀ i ∈ (w.mMainTasks ++ turn.posted).zipIdx, TaskSafe (turn.tasks i.2) i.1
  updates : turn.poll.Normal → UpdatesSafe cfg turn.updates (atPoll cfg turn w)

def TurnsSafe : List Turn → World → Prop
  | [], _ => True
  | turn :: rest, w => TurnSafe cfg turn w ∧ TurnsSafe rest (final (takeTurn cfg turn) w)

end

/-! ### Messages -/

/-- The program stops by nothing that ends the process. -/
def Tame {σ α : Type} (m : EStateM Stop σ α) (s : σ) : Prop :=
  wp m (fun _ _ => True) (fun stop _ => stop.tame = true) s

section
variable {cfg : Config} {c : Chat} {m : Message}

theorem Tame.bind {σ α β : Type} {m : EStateM Stop σ α} {f : α → EStateM Stop σ β} {s : σ}
    (h : wp m (fun a s' => Tame (f a) s') (fun stop _ => stop.tame = true) s) : Tame (m >>= f) s :=
  (wp_bind f).mpr h

theorem Tame.failure {σ α : Type} {m : EStateM Stop σ α} {s : σ} (h : Tame m s) :
    ∀ stop, failure m s = some stop → stop.tame = true :=
  of_wp (P := fun r _ => ∀ stop, r = some stop → stop.tame = true)
    (wp_mono h (fun _ _ _ _ hn => by cases hn) fun _ _ hs _ he => Option.some.inj he ▸ hs)

theorem tame_of_calm {σ α : Type} {m : EStateM Stop σ α} [h : Calm m] (s : σ) : Tame m s := h.tame s

theorem masterKeyFirstname_tame {env : SmallTalkEnv} (h : StaffSpared cfg env.staff) :
    Tame (masterKeyFirstname cfg env m) c := by
  refine Tame.bind (Tame.bind (Tame.bind ?_))
  rw [wp_service]
  refine wp_mono (besideNotice_spared h (fun t ht s => ?_) _) (fun _ _ _ => tame_of_calm _) fun _ _ => Stop.tame_of_alive
  rw [List.mem_singleton.mp ht, wp_bind, wp_call]
  exact ⟨fun _ _ => trivial, fun _ _ => rfl⟩

theorem answerStep_tame {env : SmallTalkEnv} (h : TalkSafe cfg env m c.ud.jiraTask) :
    Tame (answerStep cfg env m c.ud.jiraTask.stat) c := by
  unfold answerStep
  split
  case h_1 hstat => exact masterKeyFirstname_tame (h.key hstat)
  case h_7 hstat =>
    refine (wp_guarded _).mpr ⟨fun htext => ?_, fun _ => trivial⟩
    have hsub : submitted m c.ud.jiraTask = some (completed m c.ud.jiraTask) := if_pos ⟨hstat, htext⟩
    rw [wp_bind, wp_modifyTask]
    exact (createNewIssue_completes (h.filing _ hsub)).inThread
  case h_8 hstat =>
    have hsub : submitted m c.ud.jiraTask = some c.ud.jiraTask := by
      rw [submitted, hstat]
      rfl
    exact (createNewIssue_completes (h.filing _ hsub)).inThread
  case h_13 =>
    unfold sharedFirstname
    split
    · refine Completes.inThread ?_
      exact wp_mono (receivePhotos_photographed env.photos) (fun _ _ _ => trivial) fun _ _ => id
    · exact tame_of_calm c
  all_goals exact tame_of_calm c

theorem smallTalk_tame {env : SmallTalkEnv} (h : TalkSafe cfg env m c.ud.jiraTask) :
    Tame (smallTalk cfg env m) c := by
  refine Tame.bind ((wp_ite _ _).mpr ⟨fun _ => answerStep_tame h, fun _ => trivial⟩)

end

/-! ### Clicks -/

section
variable {cfg : Config} {env : CallbackEnv} {q : CallbackQuery} {c : Chat} {w : World} {now : Int}

/-- With the two lists of one length no read goes past their end. -/
theorem clickedIssue_found (h : Lockstep c.ud) :
    wp (clickedIssue q) (fun issue c' => c' = c ∧ getSelectedIssueId q.messageId c.ud.pgdbIssues
        c.ud.recentMsgIds c.ud.recentMsgs = some issue) (fun _ _ => False) c := by
  have hsome : getSelectedIssueId q.messageId c.ud.pgdbIssues c.ud.recentMsgIds c.ud.recentMsgs ≠
      none := by
    unfold getSelectedIssueId
    cases hidx : c.ud.recentMsgIds.idxOf? q.messageId with
    | none => exact fun hn => by cases hn
    | some i =>
      have hi : i < c.ud.recentMsgs.length := by
        obtain ⟨hi, -⟩ := List.idxOf?_eq_some_iff.mp hidx
        rw [h]
        exact hi
      dsimp only
      rw [List.getElem?_eq_getElem hi]
      exact fun hn => by cases hn
  rw [clickedIssue, wp_bind, wp_get]
  cases hsel : getSelectedIssueId q.messageId c.ud.pgdbIssues c.ud.recentMsgIds c.ud.recentMsgs with
  | none => exact absurd hsel hsome
  | some issue => exact ⟨rfl, rfl⟩

theorem onTaskClosing_tame {issue : PgdbIssue} (h : c.ud.clickedMsgId ≠ 0 → env.editMarkup.Normal →
      env.alert.Normal → StaffSpared cfg env.staff) :
    Tame (onTaskClosing cfg env q issue) c := by
  rw [Tame, onTaskClosing, wp_bind, wp_get, wp_guarded]
  refine ⟨fun hclick => ?_, fun _ => trivial⟩
  rw [wp_bind, wp_service, wp_call]
  refine ⟨fun _ hedit => ?_, fun _ _ => rfl⟩
  rw [wp_bind, wp_modifySession, wp_bind, wp_service, wp_call]
  refine ⟨fun _ halert => ?_, fun _ _ => rfl⟩
  have hspared := h hclick (by rw [hedit]; trivial) (by rw [halert]; trivial)
  rw [wp_service]
  refine wp_mono (besideNotice_spared hspared ?_ _) (fun _ _ => id) fun _ _ => Stop.tame_of_alive
  refine List.forall_mem_cons.mpr ⟨fun s => ?_, List.forall_mem_singleton.mpr fun s => ?_⟩
  · rw [archivingCard, wp_call]
    exact ⟨fun _ _ => trivial, fun _ _ => rfl⟩
  · rw [wp_bind, deleteIssueFromDb, wp_sql]
    exact ⟨fun _ => trivial, fun _ => trivial, fun _ _ => rfl⟩

theorem onMyTasks_tame (hat : w.At q.from_.id c) (h : c.ud.clickedMsgId = q.messageId →
      ListSafe cfg env.myIssues c.sh.db q.from_.id) :
    Tame (onMyTasks cfg env q now) w := by
  rw [Tame, onMyTasks, wp_bind]
  refine wp_onSession hat ?_
  simp only [spendMenu, wp_bind, wp_get, wp_ite, wp_modifySession, wp_pure]
  refine ⟨fun hclick w₁ h₁ _ => ?_, fun _ w₁ _ _ => ?_⟩
  · refine wp_guarded_of rfl (Completes.inThread ?_)
    rw [Completes, getMyIssues]
    refine wp_ownSession h₁ _ fun w₂ h₂ _ => wp_onSession h₂ ?_
    exact wp_mono (showMyIssues_completes (h hclick)) (fun _ _ _ _ _ _ => trivial)
      fun _ _ => False.elim
  · exact wp_guarded_of_not Bool.false_ne_true trivial

theorem pressButton_tame {b : Button} (hb : buttonOf q.data = some b) (hat : w.At q.from_.id c)
    {issue : Option PgdbIssue} (hissue : getSelectedIssueId q.messageId c.ud.pgdbIssues
      c.ud.recentMsgIds c.ud.recentMsgs = some issue) (h : ClickSafe cfg env q c.ud c.sh.db) :
    Tame (pressButton cfg env q now issue b) w := by
  have hsession {m : ChatM Unit} (hm : Tame m c) : Tame (onSession m) w :=
    wp_onSession hat (wp_mono hm (fun _ _ _ _ _ _ => trivial) fun _ _ hs _ _ _ => hs)
  cases b with
  | myTasks => exact onMyTasks_tame hat (h.list hb)
  | taskClosing =>
    refine hsession ?_
    cases issue with
    | none => trivial
    | some issue =>
      exact onTaskClosing_tame fun hclick hedit halert =>
        h.closing hb hclick hedit halert ⟨issue, hissue⟩
  | sendFile =>
    have hthread : Tame onSendFile c := by
      unfold onSendFile
      refine Completes.inThread ?_
      trivial
    exact hsession hthread
  | _ => exact (pressButton_calm issue (by decide)).tame w

/-- What a click does in the own session, whatever was decided about a key before. -/
theorem ownCallback_tame {w₁ : World} (hlists : ∀ u, w₁.session q.from_.id = some u → Lockstep u)
    (h : ∀ b, buttonOf q.data = some b → ∀ u, w₁.session q.from_.id = some u →
      ClickSafe cfg env q u w₁.sh.db) :
    Tame (ownCallback cfg env q now) w₁ := by
  rw [Tame, ownCallback]
  refine wp_inSession _ _ (fun _ => trivial) fun u hu w₂ h₂ _ => ?_
  rw [wp_bind]
  refine wp_onSession h₂ (wp_mono (clickedIssue_found (hlists u hu)) (fun issue d hd w₃ h₃ _ => ?_)
    fun _ _ => False.elim)
  obtain ⟨rfl, hissue⟩ := hd
  cases hb : buttonOf q.data with
  | none => trivial
  | some b =>
    have hsafe := h b hb u hu
    exact pressButton_tame hb h₃ hissue ⟨hsafe.list, hsafe.closing⟩

theorem issuedKey_of_inserted {kenv : KeyEnv} {u : UserDispatcher} {sh : Shared} :
    wp (insertRevitKeyToDb kenv u) (fun key _ => key = issuedKey kenv sh.db u)
      (fun stop _ => stop.tame = true) sh := by
  rw [insertRevitKeyToDb]
  simp only [wp_bind, wp_call, wp_get, wp_ite]
  refine ⟨fun selected hs => ⟨fun hf => ?_, fun ht => ?_⟩, fun _ _ => rfl⟩
  · rw [issuedKey, hs, hf, if_neg (by decide)]
    rfl
  · have hsel : kenv.selectKey = .returns true := by
      rw [hs, Bool.not_eq_false _ |>.mp ht]
    rw [issuedKey, if_pos hsel]
    simp only [Shared.log]
    cases sh.db.masterKeys.find? fun row =>
        row.tgId = itoa u.chatUserTgId ∧ row.isActivated = false with
    | some row => exact rfl
    | none =>
      simp only [wp_bind, wp_sql, wp_ite, wp_call, wp_pure]
      refine ⟨fun hi => ⟨fun _ => ⟨fun _ hc => ?_, fun _ _ => rfl⟩, fun hn => absurd trivial hn⟩,
        fun hi => ⟨fun hn => (by cases hn), fun _ => ?_⟩, fun _ _ => rfl⟩
      · rw [hi, hc]
        rfl
      · rw [hi, if_neg (by simp)]

/-- The last lines of both decisions. -/
theorem tellStaff_tame {kenv : KeyEnv} {text : Text} {f : Unit → ChatM Unit} [∀ a, Calm (f a)]
    (h : StaffSpared cfg kenv.staff) :
    Tame (inThread (service (sendMsgToStaff cfg text .none kenv.staff)) >>= f) c := by
  have hstaff : Completes (service (sendMsgToStaff cfg text .none kenv.staff)) c := by
    rw [Completes, wp_service]
    exact wp_mono (sendMsgToStaff_completes h c.sh) (fun _ _ => id) fun _ _ => id
  exact Tame.bind (wp_mono hstaff.inThread (fun _ d _ => tame_of_calm d) fun _ _ => id)

instance : Calm clearRequest := by
  unfold clearRequest
  infer_instance

variable {kenv : KeyEnv} {requester : Int}

theorem approveKey_tame (h : c.ud.jiraTask.keyReason ≠ [] → kenv.decision.Normal →
      issuedKey kenv c.sh.db c.ud ≠ [] → StaffSpared cfg kenv.staff) :
    Tame (approveKey cfg kenv q requester) c := by
  rw [Tame, approveKey, wp_bind, wp_get, wp_guarded]
  refine ⟨fun hreason => ?_, fun _ => trivial⟩
  rw [wp_bind, wp_service, wp_log, wp_bind, wp_service]
  refine wp_mono issuedKey_of_inserted (fun key sh hkey => ?_) fun _ _ => id
  dsimp only
  split
  · exact tame_of_calm _
  · rename_i hne
    rw [wp_bind, wp_service, wp_call]
    refine ⟨fun _ hsent => ?_, fun _ _ => rfl⟩
    exact tellStaff_tame (h hreason (by rw [hsent]; trivial) fun hn => hne (hkey.trans hn))

theorem rejectKey_tame (h : c.ud.jiraTask.keyReason ≠ [] → kenv.decision.Normal →
      StaffSpared cfg kenv.staff) :
    Tame (rejectKey cfg kenv q requester) c := by
  rw [Tame, rejectKey, wp_bind, wp_get, wp_guarded]
  refine ⟨fun hreason => ?_, fun _ => trivial⟩
  rw [wp_bind, wp_service, wp_log, wp_bind, wp_service, wp_call]
  refine ⟨fun _ hsent => ?_, fun _ _ => rfl⟩
  exact tellStaff_tame (h hreason (by rw [hsent]; trivial))

theorem isApprove_of_isReject (h : isReject q.data) : ¬isApprove q.data := by
  have ha : of "approve_key_request" = 'a' :: of "pprove_key_request" := by decide
  have hr : of "_reject_key_request" = '_' :: of "reject_key_request" := by decide
  rw [isReject, hr] at h
  rw [isApprove, ha]
  cases hd : q.data with
  | nil => exact Bool.false_ne_true
  | cons first rest =>
    simp only [hd, List.isPrefixOf_cons_cons, Bool.and_eq_true, beq_iff_eq] at h ⊢
    intro h'
    exact absurd (h'.1.trans h.1.symm) (by decide)

/-- An approval, or the search before a rejection. -/
theorem lookUpRequester_tame (h : requester ≠ 0 → isApprove q.data → ∀ u,
      w.session requester = some u → u.jiraTask.keyReason ≠ [] → kenv.decision.Normal →
        issuedKey kenv w.sh.db u ≠ [] → StaffSpared cfg kenv.staff) :
    Tame (lookUpRequester cfg kenv q requester now) w := by
  refine wp_lookUpRequester (fun _ _ _ => trivial) (fun u hu h0 happrove => ?_) fun _ _ _ _ _ _ => trivial
  refine wp_mono (approveKey_tame fun hreason => h h0 happrove u hu hreason) (fun _ _ _ _ _ _ => trivial) ?_
  exact fun stop d hstop _ _ _ => ⟨fun _ => trivial, fun _ => hstop⟩

theorem keyDecision_tame (h : KeySafe cfg kenv q w) : Tame (keyDecision cfg kenv q now) w := by
  unfold keyDecision
  split
  · trivial
  · rename_i requester hreq
    have hlook : Tame (lookUpRequester cfg kenv q requester now) w :=
      lookUpRequester_tame fun hne _ u hu hreason hsent hkey =>
        h requester hreq hne u hu hreason hsent fun _ => hkey
    refine Tame.bind (wp_mono (wp_and hlook lookUpRequester_decided) (fun goesOn w₁ h₁ => ?_)
      fun _ _ hs => hs.1)
    refine Tame.bind (Tame.bind ((wp_guarded _).mpr ⟨fun hc => ?_, fun _ => trivial⟩))
    obtain ⟨-, hd⟩ := h₁
    cases hu : w.session requester with
    | none => rw [(hd.absent hu).2] at hc; exact absurd hc.2.2.1 (by simp)
    | some u =>
      obtain ⟨u', hlooked, hat⟩ := hd.present u hu
      refine wp_onSession hat (wp_mono (rejectKey_tame fun hreason hsent => ?_)
        (fun _ _ _ _ _ _ => trivial) fun _ _ hs _ _ _ => hs)
      refine h requester hreq hc.2.1 u hu ?_ hsent fun ha => absurd ha (isApprove_of_isReject hc.2.2.2)
      rcases hlooked.request with hsame | hclosed
      · rw [← hsame]; exact hreason
      · exact absurd hclosed hreason

end

/-! ### Updates -/

section
variable {cfg : Config} {env : UpdateEnv} {x : Update} {m : Message} {q : CallbackQuery} {w : World}

theorem handleUpdate_message_tame (h : UpdateSafe cfg env w (.message m)) :
    Tame (handleUpdate cfg env (.message m)) w := by
  refine Tame.bind ?_
  have hcalm : Tame (sessionDispatcher cfg env.dispatcher env.now m) w := tame_of_calm w
  refine wp_mono (wp_run (wp_and hcalm sessionDispatcher_dispatched)) (fun _ w₁ h₁ => ?_)
    fun _ _ hs => hs.2.1
  obtain ⟨hrun, -, hd⟩ := h₁
  obtain ⟨u, -, hat⟩ := hd.here
  have hfacing : facing cfg env w m = some u.jiraTask := by
    simp only [facing, hrun, hat.session, Option.map_some]
  refine wp_ownSession hat _ fun w₂ h₂ _ => wp_onSession h₂ ?_
  exact wp_mono (smallTalk_tame (h _ hfacing)) (fun _ _ _ _ _ _ => trivial) fun _ _ hs _ _ _ => hs

theorem buttonOf_key (h : isApprove q.data ∨ isReject q.data) : buttonOf q.data = none := by
  cases hb : buttonOf q.data with
  | none => rfl
  | some b =>
    rw [data_of_buttonOf hb] at h
    revert h
    cases b <;> decide

theorem handleUpdate_callback_tame (hlists : ∀ b u, w.session b = some u → Lockstep u)
    (h : UpdateSafe cfg env w (.callback q)) : Tame (handleUpdate cfg env (.callback q)) w := by
  refine (wp_guarded _).mpr ⟨fun hrole => ?_, fun _ => trivial⟩
  obtain ⟨hkey, hclick⟩ := h hrole
  dsimp only
  split
  · rename_i hdata
    have hmay : cfg.hasRole q.from_.id .staff := roleForCallback_key hdata ▸ hrole
    refine Tame.bind (wp_mono (wp_and (keyDecision_tame (hkey hdata)) keyDecision_decided)
      (fun goesOn w₁ h₁ => ?_) fun _ _ hs => hs.1)
    refine (wp_guarded _).mpr ⟨fun _ => ?_, fun _ => trivial⟩
    have hclicked : Clicked cfg env q w w₁ := by
      rcases h₁.2 with rfl | ⟨requester, hreq, hd⟩
      · exact .refl _
      · exact .of_decided hdata hmay hreq hd
    refine ownCallback_tame (fun u hu => ?_) fun b hb => ?_
    · obtain ⟨u₀, hu₀, hlook⟩ := hclicked.found hu
      exact hlook.lockstep (hlists _ u₀ hu₀)
    · rw [buttonOf_key hdata] at hb
      cases hb
  · refine Tame.bind ((wp_guarded _).mpr ⟨fun _ => ?_, fun _ => trivial⟩)
    exact ownCallback_tame (hlists _) fun _ _ u hu => hclick u hu

/-- A safe update leaves the process alive. -/
theorem handleUpdate_alive (hlists : ∀ b u, w.session b = some u → Lockstep u)
    (h : UpdateSafe cfg env w x) : Alive (failure (handleUpdate cfg env x) w) := by
  have htame : Tame (handleUpdate cfg env x) w := by
    cases x with
    | command name m =>
      rw [handleUpdate]
      exact tame_of_calm w
    | message m => exact handleUpdate_message_tame h
    | callback q => exact handleUpdate_callback_tame hlists h
  intro stop hstop
  have haccess := (handleUpdate_handles cfg env x w).access
  have hstop' : stop.tame = true := htame.failure stop hstop
  cases stop with
  | throws e => rfl
  | badAccess => exact absurd hstop haccess
  | terminate | outOfRange => cases hstop'

end

/-! ### The loop -/

section
variable {cfg : Config} {hist : List Handled} {w : World}

theorem getTaskInfo_completes {env : TaskInfoEnv} {issueKey : Text} {sh : Shared}
    (h : env.issue.Normal) : Completes (getTaskInfo cfg issueKey env) sh := by
  rw [Completes, getTaskInfo, wp_bind, wp_call]
  refine ⟨fun reply _ => ?_, fun _ he => h.not_throws he⟩
  cases reply with
  | noHandle => trivial
  | failed => trivial
  | answered status body =>
    refine (wp_ite _ _).mpr ⟨fun _ => trivial, fun _ => ?_⟩
    cases body with
    | none => trivial
    | some v =>
      simp only [wp_bind, wp_get, wp_modify, wp_guarded, wp_catching, wp_call, wp_pure]
      exact ⟨fun _ => ⟨fun _ _ => ⟨fun _ _ => trivial, fun _ _ => trivial⟩, fun _ _ => trivial⟩,
        fun _ => trivial⟩

theorem runTask_completes {env : TaskEnv} {task : Task} (h : TaskSafe env task) (sh : Shared) :
    Completes (runTask cfg env task) sh := by
  cases task with
  | jiraWebhook requestUrl =>
    obtain ⟨hnotice, hurl, hissue⟩ := h
    rw [Completes, runTask, jiraWebhooksHandler, wp_bind, wp_call]
    refine ⟨fun _ _ => ?_, fun _ he => hnotice.not_throws he⟩
    rw [wp_ite, wp_guarded, wp_bind]
    refine ⟨fun hn => absurd hn hurl, fun _ => ⟨fun hu => ?_, fun _ => trivial⟩⟩
    exact wp_mono (getTaskInfo_completes (hissue hu)) (fun _ _ _ => trivial) fun _ _ => id
  | qtBgWorker =>
    obtain ⟨⟨n, hsize⟩, hnotice⟩ := h
    simp only [Completes, runTask, qtBgWorker, getMemSize, hsize, wp_bind, wp_call, wp_guarded, wp_log]
    refine ⟨fun size hs => ?_, fun _ he => (by cases he)⟩
    cases hs
    exact ⟨fun _ _ => ⟨fun _ => trivial, fun _ => trivial⟩, fun _ he => hnotice.not_throws he⟩

/-- Between updates all sessions have their two lists of one length. -/
theorem Run.lockstep (hr : Run cfg hist w) : ∀ b u, w.session b = some u → Lockstep u := by
  refine hr.induct (P := fun _ w => ∀ b u, w.session b = some u → Lockstep u) ?_ ?_ ?_
  · intro sh _ b u hu
    cases hu
  · intro hist w _ hw env x w' _ _ hh b u hu
    by_cases hb : b = x.fromId
    · subst hb
      cases hh.own with
      | idle _ _ _ _ hs =>
        rcases hs with hs | ⟨u₀, u', hs, hs', hlook⟩
        · exact hw _ u (hs ▸ hu)
        · rw [hs', Option.some.injEq] at hu
          exact hu ▸ hlook.lockstep (hw _ u₀ hs)
      | moved harr hs' _ _ _ _ _ hlists =>
        rw [hs', Option.some.injEq] at hu
        refine hu ▸ hlists ?_
        cases harr with
        | found hs hlook => exact hlook.lockstep (hw _ _ hs)
        | new _ hlists => exact hlists
    · cases hh.others b hb with
      | kept hs => exact hw b u (hs ▸ hu)
      | decided _ _ _ _ hs hs' hlook =>
        rw [hs', Option.some.injEq] at hu
        exact hu ▸ hlook.lockstep (hw b _ hs)
      | evicted _ he =>
        obtain ⟨-, -, -, hs⟩ := he
        rw [hs] at hu
        cases hu
  · exact fun _ _ _ _ hw ha b u hu => hw b u (ha.session b ▸ hu)

/-- The updates of a poll, up to the exception that ends it. -/
theorem updates_alive {updates : List (UpdateEnv × Update)} (h : Reaches cfg hist w)
    (hsafe : UpdatesSafe cfg updates w) :
    wp (forEach updates fun (env, update) => handleUpdate cfg env update) (fun _ => Reaches cfg hist)
      (fun stop w' => stop.fatal = false ∧ Reaches cfg hist w') w := by
  induction updates generalizing w with
  | nil => exact h
  | cons i rest ih =>
    obtain ⟨env, x⟩ := i
    obtain ⟨hx, hrest⟩ := hsafe
    obtain ⟨more, hr⟩ := h
    have halive := handleUpdate_alive hr.lockstep hx
    rw [forEach, wp_bind]
    refine wp_mono (wp_run (Reaches.update ⟨more, hr⟩ env x)) (fun _ w₁ h₁ => ?_) fun stop w₁ h₁ => ?_
    · have hdone : failure (handleUpdate cfg env x) w = none := by
        rw [Program.failure, h₁.1]
      have hsafe := hrest hdone
      rw [final_of_ok h₁.1] at hsafe
      exact ih h₁.2 hsafe
    · have hstop := halive stop (by rw [Program.failure, h₁.1])
      exact ⟨hstop, h₁.2 hstop⟩

theorem tasks_alive {env : Nat → TaskEnv} (h : Reaches cfg hist w)
    (hsafe : ∀ i ∈ w.mMainTasks.zipIdx, TaskSafe (env i.2) i.1) :
    wp (runPending cfg env) (fun _ => Reaches cfg hist) (fun _ _ => False) w := by
  rw [runPending, wp_bind, wp_get, wp_bind, wp_modify]
  refine wp_forEach (fun i hi w₁ h₁ => ?_) (h.imp fun _ hr => hr.queued _)
  have hdone : Completes (serviceBot (runTask cfg (env i.2) i.1)) w₁ := by
    rw [Completes, serviceBot, wp_zoom]
    exact wp_mono (runTask_completes (hsafe i hi) _) (fun _ _ => id) fun _ _ => id
  exact wp_mono (wp_and hdone (h₁.runTask _ _)) (fun _ _ h => h.2) fun _ _ h => h.1

theorem takeTurn_alive {turn : Turn} (h : Reaches cfg hist w) (hsafe : TurnSafe cfg turn w) :
    wp (takeTurn cfg turn) (fun _ => Reaches cfg hist) (fun _ _ => False) w := by
  have hfirst : wp (do
      modify fun w => {w with mMainTasks := w.mMainTasks ++ turn.posted}
      runPending cfg turn.tasks) (fun _ => Reaches cfg hist) (fun _ _ => False) w := by
    rw [wp_bind, wp_modify]
    exact tasks_alive (h.imp fun _ hr => hr.queued _) hsafe.tasks
  have hturn : takeTurn cfg turn = (do
      modify fun w => {w with mMainTasks := w.mMainTasks ++ turn.posted}
      runPending cfg turn.tasks) >>= fun _ => catching (longPoll cfg turn) fun _ => pure () := by
    rw [takeTurn, bind_assoc]
  rw [hturn, wp_bind]
  refine wp_mono (wp_run hfirst) (fun _ w₁ h₁ => ?_) fun _ _ h => h.2
  have hpoll : atPoll cfg turn w = w₁ := final_of_ok h₁.1
  have hupdates := hsafe.updates
  rw [wp_catching, longPoll]
  cases hp : turn.poll with
  | throws e => exact h₁.2
  | returns _ =>
    rw [hp, hpoll] at hupdates
    refine wp_mono (updates_alive h₁.2 (hupdates trivial)) (fun _ _ => id) fun stop w₂ h₂ => ?_
    cases stop with
    | throws e => exact h₂.2
    | _ => cases h₂.1

theorem botLoop_alive {turns : List Turn} (h : Reaches cfg hist w) (hsafe : TurnsSafe cfg turns w) :
    wp (botLoop cfg turns) (fun _ => Reaches cfg hist) (fun _ _ => False) w := by
  induction turns generalizing w with
  | nil => exact h
  | cons turn rest ih =>
    obtain ⟨hturn, hrest⟩ := hsafe
    rw [botLoop, forEach, wp_bind]
    refine wp_mono (wp_run (takeTurn_alive h hturn)) (fun _ w₁ h₁ => ?_) fun _ _ h => h.2
    rw [final_of_ok h₁.1] at hrest
    exact ih h₁.2 hrest

/-- The loop goes on through every run whose updates and tasks are safe. -/
theorem bot_survives {sh : Shared} (hstart : sh.trace = []) {turns : List Turn}
    (hsafe : TurnsSafe cfg turns {sh}) : failure (botLoop cfg turns) {sh} = none :=
  of_wp (P := fun r _ => r = none)
    (wp_mono (botLoop_alive (.of_run (.start hstart)) hsafe) (fun _ _ _ => rfl) fun _ _ => False.elim)

end

/-- A webhook, and then a user who opens a dialog and answers its first question. -/
def webhookTurn (notice : Sending) : Turn where
  posted := [.jiraWebhook (of "/UPD/USERTASKS-1")]
  tasks _ :=
    { notice, taskInfo := ⟨.returns .failed, .returns true, .returns ()⟩, memSize := .returns none,
      uptime := 0, listcheckerPid := 1 }
  poll := .returns ()
  updates :=
    [startFrom 6, clickFrom 6 "new_task", textFrom 6 "AR"].map fun x => (UpdateEnv.calm 0, x)

theorem bot_survives_webhook :
    failure (botLoop {} [webhookTurn (.returns ⟨1, 1⟩)]) {sh := {}} = none := by
  refine bot_survives rfl ⟨⟨fun i hi => ?_, fun _ => ⟨trivial, fun _ => ⟨fun _ => ⟨fun hkey => ?_, ?_⟩,
    fun _ => ⟨fun t ht => ?_, fun _ => trivial⟩⟩⟩⟩, trivial⟩
  · rw [List.mem_singleton.mp hi]
    exact ⟨trivial, by decide, fun _ => trivial⟩
  · exact absurd hkey (by decide)
  · intro u _
    exact ⟨fun hb => absurd hb (by decide), fun hb => absurd hb (by decide)⟩
  · have hstart : t = Dialog.task.start {} := by
      refine Option.some.inj (ht.symm.trans ?_)
      decide +kernel
    subst hstart
    refine ⟨fun hstat => absurd hstat (by decide), fun task hsub => ?_⟩
    exact absurd (hsub.symm.trans (by decide)) (Option.some_ne_none task)

/-- The message to support about a webhook fails, and the loop with it. -/
theorem webhook_ends_loop :
    ¬∀ (cfg : Config) (sh : Shared) (turns : List Turn), sh.trace = [] →
      failure (botLoop cfg turns) {sh} = none :=
  fun h => absurd (h {} {} [webhookTurn (.throws .tgException)] rfl) (by decide +kernel)

end Chanserv
