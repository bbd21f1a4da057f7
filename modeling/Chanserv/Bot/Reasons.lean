import Chanserv.Bot.Announcements

/-! What becomes of a key request in an update.

A request is the reason in the task of a session. The answer to the question for the
reason writes it, and whatever empties the task takes it away. For each handler `Leaves`
says what is left of the reason: messages, commands and clicks of the user himself. -/
namespace Chanserv
open Text Program

/-! ### Updates that empty the task -/

/-- `staff_add_new_contractor` is done, or refused and the refusal told. -/
def SmallTalkEnv.AddsContractor (env : SmallTalkEnv) (m : Message) : Prop :=
  match contractorOfParts (m.text.splitOn '\\'), env.insertContractor with
  | none, _ | some _, .returns false => env.refusal.Normal
  | some _, .returns true => env.prompt.Normal ∧ env.selectContractors.Normal
  | some _, .throws _ => False

/-- `developer_send_msg_as_bot` is done. -/
def SmallTalkEnv.SendsAsBot (env : SmallTalkEnv) : Prop :=
  match env.asBot with
  | .returns _ => env.prompt.Normal
  | .throws .tgException => env.notSent.Normal ∧ env.prompt.Normal
  | .throws .stdException => False

/-- The step ends with an empty task: a service step that is done or refused, a task that is filed. -/
def SmallTalkEnv.Clears (env : SmallTalkEnv) (m : Message) (stat : Nat) : Prop :=
  match stat with
  | staffAddNewContractor => env.AddsContractor m
  | developerSendMsgAsBot => env.SendsAsBot
  | staffSetNewMsiVersion => env.setMsiVersion.Normal ∧ env.prompt.Normal
  | sharedSeparateTeklaFromBimStep6 => m.text ≠ []
  | sharedFinalStep7 => True
  | _ => False

instance (env : SmallTalkEnv) (m : Message) (stat : Nat) : Decidable (env.Clears m stat) := by
  unfold SmallTalkEnv.Clears SmallTalkEnv.AddsContractor SmallTalkEnv.SendsAsBot
  repeat' split
  all_goals infer_instance

/-- The button empties the task when it is one of the last menu. -/
def Button.Clears (env : CallbackEnv) : Button → Prop
  | .reqMasterKey | .myTasks | .newTask | .newFamily => True
  | .teklaBack => env.editMarkup.Normal
  | _ => False

instance (env : CallbackEnv) (b : Button) : Decidable (b.Clears env) := by
  unfold Button.Clears
  split <;> infer_instance

/-- The click empties the task: it is one under the last menu. -/
def World.Emptied (w : World) (env : CallbackEnv) (q : CallbackQuery) : Prop :=
  ∃ u ∈ w.session q.from_.id, u.clickedMsgId = q.messageId ∧ ∃ b ∈ buttonOf q.data, b.Clears env

instance (w : World) (env : CallbackEnv) (q : CallbackQuery) : Decidable (w.Emptied env q) :=
  inferInstanceAs (Decidable (∃ u ∈ w.session q.from_.id, _))

/-- The update empties the task of who sent it. -/
def Update.Clears (cfg : Config) (env : UpdateEnv) (w : World) : Update → Prop
  | .command _ m => failure (sessionDispatcher cfg env.dispatcher env.now m) w = none
  | .message m => ∃ t ∈ facing cfg env w m,
      ¬cfg.hasRole m.from_.id (roleForStep t.stat) ∨ env.smallTalk.Clears m t.stat
  | .callback q => w.Emptied env.callback q

instance (cfg : Config) (env : UpdateEnv) (w : World) : ∀ x : Update, Decidable (x.Clears cfg env w)
  | .command _ m => inferInstanceAs (Decidable (failure (sessionDispatcher cfg env.dispatcher env.now m) w = none))
  | .message m => inferInstanceAs (Decidable (∃ t ∈ facing cfg env w m, _))
  | .callback q => inferInstanceAs (Decidable (w.Emptied env.callback q))

/-- An update of the user himself empties the task of his session. -/
def Handled.Clears (cfg : Config) (id : Int) (h : Handled) : Prop :=
  h.x.fromId = id ∧ h.x.Clears cfg h.env h.before

instance (cfg : Config) (id : Int) (h : Handled) : Decidable (h.Clears cfg id) := inferInstanceAs (Decidable (_ ∧ _))

/-! ### In the session -/

/-- The reason is `r` in the end, unless the process ends. -/
def Chat.Leaves {α : Type} (c : Chat) (r : Text) (m : ChatM α) : Prop :=
  wp m (fun _ d => d.reason = r) (fun stop d => stop.fatal = false → d.reason = r) c

section
variable {α : Type} {cfg : Config} {c : Chat} {r : Text}

/-- Most programs leave it as it is. -/
theorem Chat.Leaves.kept {m : ChatM α} [hm : Frames Chat.request m] (hc : c.reason = r) : c.Leaves r m :=
  wp_mono (hm.keeps c) (fun _ _ h => (congrArg Prod.fst h).trans hc) fun _ _ h _ => (congrArg Prod.fst h.2).trans hc

end

section
variable {cfg : Config} {env : SmallTalkEnv} {m : Message} {c : Chat} {s : Shared}

theorem ask_leaves (question : Question) (receiver : Int) (text : Text) :
    c.Leaves (question.record (question.clean text) c.ud.jiraTask).keyReason (question.ask env receiver text) := by
  simp only [Chat.Leaves, Question.ask, wp_bind, wp_service, wp_modifyTask, wp_call]
  exact ⟨fun _ _ => rfl, fun _ _ _ => rfl⟩

theorem reloadContractorsList_wp {Q : Unit → Shared → Prop} {E : Stop → Shared → Prop} {r : Answer Bool}
    (hQ : r.Normal → ∀ s', Q () s') (hE : ¬r.Normal → ∀ stop s', E stop s') : wp (reloadContractorsList r) Q E s := by
  simp only [reloadContractorsList, wp_bind, wp_modify, wp_select]
  cases r with
  | returns ok => exact ⟨fun _ => hQ trivial _, fun _ => hQ trivial _, fun _ hn => (by cases hn)⟩
  | throws e => exact ⟨fun hn => (by cases hn), fun hn => (by cases hn), fun _ _ => hE (fun hn => hn) _ _⟩

/-- The task is emptied exactly when `p`. -/
def Chat.Left (c : Chat) (p : Prop) (r : Text) : Prop := (p → r = []) ∧ (¬p → r = c.reason)

theorem staffAddContractor_leaves {r : Text} (hr : c.Left (env.AddsContractor m) r) :
    c.Leaves r (staffAddContractor env m) := by
  obtain ⟨hdone, hstopped⟩ := hr
  simp only [Chat.Leaves, staffAddContractor]
  unfold SmallTalkEnv.AddsContractor at hdone hstopped
  cases hparts : contractorOfParts (m.text.splitOn '\\') with
  | none =>
    rw [hparts] at hdone hstopped
    simp only [wp_bind, wp_service, wp_call, wp_modifyTask]
    refine ⟨fun sent h => ?_, fun e h _ => ?_⟩
    · rw [h] at hdone
      exact (hdone trivial).symm
    · rw [h] at hstopped
      exact (hstopped id).symm
  | some row =>
    rw [hparts] at hdone hstopped
    simp only [wp_bind, wp_service, wp_sql, wp_ite, wp_call, wp_modifyTask]
    refine ⟨fun hinsert => ⟨fun _ => ⟨fun sent h => ?_, fun e h _ => ?_⟩, fun hn => absurd trivial hn⟩,
      fun hinsert => ⟨fun hn => (by cases hn), fun _ => ⟨fun sent h => ?_, fun e h _ => ?_⟩⟩, fun e hinsert _ => ?_⟩
    all_goals rw [hinsert] at hdone hstopped
    · refine reloadContractorsList_wp (fun hread s' => ?_) fun hunread stop s' _ => ?_
      · exact (hdone ⟨by rw [h]; trivial, hread⟩).symm
      · exact (hstopped fun hboth => hunread hboth.2).symm
    · exact (hstopped fun hboth => hboth.1.not_throws h).symm
    · exact (hdone (by rw [h]; trivial)).symm
    · exact (hstopped fun hnormal => hnormal.not_throws h).symm
    · exact (hstopped id).symm

theorem developerMsgAsBot_leaves {r : Text} (hr : c.Left env.SendsAsBot r) : c.Leaves r (developerMsgAsBot env m) := by
  obtain ⟨hdone, hstopped⟩ := hr
  unfold SmallTalkEnv.SendsAsBot at hdone hstopped
  simp only [Chat.Leaves, developerMsgAsBot, wp_bind, wp_service, wp_modifyTask, wp_catchingTg, wp_call, wp_pure]
  refine ⟨fun _ hbot => ⟨fun _ h => ?_, fun e h _ => ?_⟩, fun x hbot => ?_⟩
  · rw [hbot] at hdone
    exact (hdone (by rw [h]; trivial)).symm
  · rw [hbot] at hstopped
    exact (hstopped fun hnormal => hnormal.not_throws h).symm
  · rw [hbot] at hdone hstopped
    cases x with
    | tgException =>
      refine ⟨fun _ hreport => ⟨fun _ h => ?_, fun e h _ => ?_⟩, fun e hreport _ => ?_⟩
      · exact (hdone ⟨by rw [hreport]; trivial, by rw [h]; trivial⟩).symm
      · exact (hstopped fun hboth => hboth.2.not_throws h).symm
      · exact (hstopped fun hboth => hboth.1.not_throws hreport).symm
    | stdException => exact fun _ => (hstopped id).symm

theorem staffSetMsiVersion_leaves {r : Text} (hr : c.Left (env.setMsiVersion.Normal ∧ env.prompt.Normal) r) :
    c.Leaves r (staffSetMsiVersion env m) := by
  obtain ⟨hdone, hstopped⟩ := hr
  have htold (ok : Bool) (hset : env.setMsiVersion = .returns ok) :
      (∀ sent, env.prompt = .returns sent → [] = r) ∧ ∀ e, env.prompt = .throws e → c.reason = r := by
    rw [hset] at hdone hstopped
    refine ⟨fun sent h => ?_, fun e h => ?_⟩
    · exact (hdone ⟨trivial, by rw [h]; trivial⟩).symm
    · exact (hstopped fun hboth => hboth.2.not_throws h).symm
  simp only [Chat.Leaves, staffSetMsiVersion, wp_bind, wp_service, wp_sql, wp_call, wp_modifyTask]
  refine ⟨fun hset => ?_, fun hset => ?_, fun e hset _ => ?_⟩
  · exact ⟨(htold true hset).1, fun e h _ => (htold true hset).2 e h⟩
  · exact ⟨(htold false hset).1, fun e h _ => (htold false hset).2 e h⟩
  · exact (hstopped fun hboth => hboth.1.not_throws hset).symm

/-- A task that is filed is gone, if the process is not. -/
theorem createNewIssue_leaves (cenv : CreateIssueEnv) : c.Leaves [] (inThread (createNewIssue cfg cenv m)) := by
  have hany (d : Chat) : wp (submitTask cfg cenv m) (fun _ _ => True) (fun _ _ => True) d := by
    have hstays : Stays (fun _ _ => True) (submitTask cfg cenv m) := inferInstance
    exact hstays.within d
  simp only [Chat.Leaves, wp_inThread, createNewIssue, wp_bind, wp_get, wp_service, wp_log, wp_modifyTask]
  refine wp_mono (hany _) (fun _ _ _ => rfl) fun stop _ _ => ?_
  cases stop with
  | throws e => exact fun hn => by cases hn
  | _ => exact fun hn => by cases hn

theorem asked_leaves {question : Question} {r : Text} (receiver : Int)
    (hrecord : ∀ answer t, (question.record answer t).keyReason = t.keyReason) (hr : r = c.reason) :
    c.Leaves r (question.ask env receiver m.text) := by
  have hask := @ask_leaves env c question receiver m.text
  rw [hrecord] at hask
  rw [hr]
  exact hask

/-- The `switch`: all steps but one leave the reason, or empty the task. -/
theorem answerStep_leaves {stat : Nat} {r : Text} (hstat : stat ≠ revitMasterKeyReasonStep1)
    (hr : c.Left (env.Clears m stat) r) : c.Leaves r (answerStep cfg env m stat) := by
  unfold answerStep
  split
  case h_1 | h_5 => exact .kept (hr.2 id).symm
  case h_2 => exact absurd rfl hstat
  case h_3 => exact staffAddContractor_leaves hr
  case h_4 => exact developerMsgAsBot_leaves hr
  case h_6 => exact staffSetMsiVersion_leaves hr
  case h_7 =>
    have hr : c.Left (m.text ≠ []) r := hr
    unfold sharedSeparateTeklaFromBim Chat.Leaves
    rw [wp_guarded]
    constructor
    · intro htext
      rw [wp_bind, wp_modifyTask, hr.1 htext]
      exact createNewIssue_leaves _
    · intro htext
      exact (hr.2 htext).symm
  case h_8 =>
    rw [hr.1 trivial]
    exact createNewIssue_leaves _
  case h_13 =>
    unfold sharedFirstname
    split
    · exact .kept (hr.2 id).symm
    · exact asked_leaves _ (fun _ _ => rfl) (hr.2 id)
  case h_18 =>
    have hno : ¬env.Clears m stat := by
      unfold SmallTalkEnv.Clears
      split
      all_goals first | exact id | contradiction
    exact .kept (hr.2 hno).symm
  all_goals exact asked_leaves _ (fun _ _ => rfl) (hr.2 id)

/-- What is left of the reason when a message comes at the step of this task. -/
def NewTask.leftAt (cfg : Config) (env : SmallTalkEnv) (m : Message) (t : NewTask) : Text :=
  if ¬cfg.hasRole m.from_.id (roleForStep t.stat) ∨ env.Clears m t.stat then []
  else if t.stat = revitMasterKeyReasonStep1 then cleanDescription m.text
  else t.keyReason

theorem smallTalk_leaves : c.Leaves (c.ud.jiraTask.leftAt cfg env m) (smallTalk cfg env m) := by
  rw [Chat.Leaves, smallTalk, wp_bind, wp_get, wp_ite]
  unfold NewTask.leftAt
  constructor
  · intro hrole
    by_cases hstat : c.ud.jiraTask.stat = revitMasterKeyReasonStep1
    · rw [hstat, if_neg (fun h => h.elim (fun hn => hn (isAllowed_anyone _ _)) id), if_pos rfl]
      exact ask_leaves masterKeyReason m.from_.id m.text
    · refine answerStep_leaves hstat ⟨fun hclears => if_pos (.inr hclears), fun hkept => ?_⟩
      rw [if_neg (fun h => h.elim (fun hn => hn hrole) hkept), if_neg hstat]
      rfl
  · intro hrole
    rw [wp_modifyTask, if_pos (.inl hrole)]
    rfl

end

/-! ### Clicks -/

/-- The reason of a user's session is `r` in the end, unless the process ends. -/
def World.Leaves {α : Type} (w : World) (id : Int) (r : Text) (m : BotM α) : Prop :=
  wp m (fun _ w' => w'.reason id = r) (fun stop w' => stop.fatal = false → w'.reason id = r) w

section
variable {cfg : Config} {env : CallbackEnv} {q : CallbackQuery} {now me : Int} {w w' : World} {c : Chat} {r : Text}

theorem World.At.reason (hat : w.At me c) : w.reason me = c.reason := World.reason_of_session hat.session

theorem World.Leaves.of_chat {α : Type} {m : ChatM α} (hat : w.At me c) (h : c.Leaves r m) :
    w.Leaves me r (onSession m) :=
  wp_onSession hat (wp_mono h (fun _ _ hd _ hat' _ => hat'.reason.trans hd)
    fun _ _ hd _ hat' _ hfatal => hat'.reason.trans (hd hfatal))

theorem onReqMasterKey_leaves (hr : c.Left (c.ud.clickedMsgId = q.messageId) r) : c.Leaves r (onReqMasterKey env q) := by
  simp only [Chat.Leaves, onReqMasterKey, ifClicked, say, wp_bind, wp_get, wp_guarded, wp_modifyTask, wp_service, wp_call,
    wp_pure]
  exact ⟨fun hclick => ⟨fun _ _ => (hr.1 hclick).symm, fun _ _ _ => (hr.1 hclick).symm⟩, fun hno => (hr.2 hno).symm⟩

theorem onTeklaBack_leaves (hr : c.Left (c.ud.clickedMsgId = q.messageId ∧ env.editMarkup.Normal) r) :
    c.Leaves r (onTeklaBack env q) := by
  simp only [Chat.Leaves, onTeklaBack, ifClicked, wp_bind, wp_get, wp_guarded, wp_modifyTask, wp_service, wp_call]
  refine ⟨fun hclick => ⟨fun _ h => ?_, fun _ h _ => ?_⟩, fun hno => ?_⟩
  · exact (hr.1 ⟨hclick, by rw [h]; trivial⟩).symm
  · exact (hr.2 fun hboth => hboth.2.not_throws h).symm
  · exact (hr.2 fun hboth => hno hboth.1).symm

/-- The menu is spent by a click under it, and then the reason is gone. -/
theorem spendMenu_leaves {f : NewTask → NewTask} (hf : (f {}).keyReason = [])
    (hr : c.Left (c.ud.clickedMsgId = q.messageId) r) :
    wp (spendMenu q f) (fun _ d => d.reason = r) (fun _ _ => False) c := by
  simp only [spendMenu, wp_bind, wp_get, wp_ite, wp_modifySession, wp_pure]
  exact ⟨fun hclick => hf.trans (hr.1 hclick).symm, fun hno => (hr.2 hno).symm⟩

theorem openDialog_leaves {f : NewTask → NewTask} (hf : (f {}).keyReason = []) {prompt parseMode : Text} {stat : Nat}
    (hat : w.At q.from_.id c) (hr : c.Left (c.ud.clickedMsgId = q.messageId) r) :
    w.Leaves q.from_.id r (openDialog q now f (askFirst env q now prompt parseMode stat)) := by
  have hstat : Frames Chat.request (modifyTask fun t => {t with stat}) := frames_task fun _ => rfl
  rw [World.Leaves, openDialog]
  refine wp_ownSession hat now fun w₁ hat₁ _ => ?_
  rw [wp_bind]
  have hr₁ : (c.touch now).Left ((c.touch now).ud.clickedMsgId = q.messageId) r := hr
  refine wp_onSession hat₁ (wp_mono (spendMenu_leaves hf hr₁) ?_ fun _ _ hf => hf.elim)
  intro spent c₂ hc₂ w₂ hat₂ _
  rw [wp_guarded]
  constructor
  · intro _
    rw [askFirst]
    refine wp_ownSession hat₂ now fun w₃ hat₃ _ => ?_
    exact World.Leaves.of_chat hat₃ (.kept hc₂)
  · intro _
    exact hat₂.reason.trans hc₂

theorem onMyTasks_leaves (hat : w.At q.from_.id c) (hr : c.Left (c.ud.clickedMsgId = q.messageId) r) :
    w.Leaves q.from_.id r (onMyTasks cfg env q now) := by
  rw [World.Leaves, onMyTasks, wp_bind]
  refine wp_onSession hat (wp_mono (spendMenu_leaves rfl hr) ?_ fun _ _ hf => hf.elim)
  intro spent c₂ hc₂ w₂ hat₂ _
  rw [wp_guarded]
  constructor
  · intro _
    rw [wp_inThread, getMyIssues]
    refine wp_ownSession hat₂ now fun w₃ hat₃ _ => ?_
    have hshown : (c₂.touch now).Leaves r (showMyIssues cfg env.myIssues q.from_.id) := .kept hc₂
    refine wp_mono (World.Leaves.of_chat hat₃ hshown) (fun _ _ h => h) fun stop _ _ => ?_
    cases stop with
    | throws e => exact fun hn => by cases hn
    | _ => exact fun hn => by cases hn
  · intro _
    exact hat₂.reason.trans hc₂

theorem pressButton_leaves {b : Button} (issue : Option PgdbIssue) (hat : w.At q.from_.id c)
    (hr : c.Left (c.ud.clickedMsgId = q.messageId ∧ b.Clears env) r) :
    w.Leaves q.from_.id r (pressButton cfg env q now issue b) := by
  have hmenu (h : b.Clears env ↔ True) : c.Left (c.ud.clickedMsgId = q.messageId) r :=
    ⟨fun hclick => hr.1 ⟨hclick, h.mpr trivial⟩, fun hno => hr.2 fun hboth => hno hboth.1⟩
  cases b with
  | reqMasterKey => exact .of_chat hat (onReqMasterKey_leaves (hmenu Iff.rfl))
  | teklaBack => exact .of_chat hat (onTeklaBack_leaves hr)
  | myTasks => exact onMyTasks_leaves hat (hmenu Iff.rfl)
  | newTask => exact openDialog_leaves rfl hat (hmenu Iff.rfl)
  | newFamily => exact openDialog_leaves rfl hat (hmenu Iff.rfl)
  | morePhotos =>
    have hkept : c.reason = r := (hr.2 fun h => h.2).symm
    cases issue with
    | none => exact hat.reason.trans hkept
    | some issue =>
      rw [World.Leaves, pressButton, Option.elim_some, onMorePhotosCommand]
      refine wp_ownSession hat now fun w₁ hat₁ _ => ?_
      exact World.Leaves.of_chat hat₁ (.kept hkept)
  | startSolving | taskClosing =>
    have hkept : c.reason = r := (hr.2 fun h => h.2).symm
    refine .of_chat hat ?_
    cases issue with
    | none => exact hkept
    | some issue =>
      rw [Option.elim_some]
      exact .kept hkept
  | _ =>
    have hkept : c.reason = r := (hr.2 fun h => h.2).symm
    simp only [pressButton, onMsgAsBot, onMsgToGpt, onRunCommand, onRebootHost, onAddNewContractor, onSetNewMsiVersion]
    exact .of_chat hat (.kept hkept)

theorem clickedIssue_wp : wp (clickedIssue q) (fun _ d => d = c) (fun stop _ => stop.fatal = true) c := by
  rw [clickedIssue, wp_bind, wp_get]
  cases getSelectedIssueId q.messageId c.ud.pgdbIssues c.ud.recentMsgIds c.ud.recentMsgs with
  | none => exact rfl
  | some issue => exact rfl

theorem ownCallback_leaves (hr : (w.Emptied env q → r = []) ∧ (¬w.Emptied env q → r = w.reason q.from_.id)) :
    w.Leaves q.from_.id r (ownCallback cfg env q now) := by
  obtain ⟨hemptied, hkept⟩ := hr
  rw [World.Leaves, ownCallback]
  refine wp_inSession _ _ (fun hs => ?_) fun u hu w₁ hat₁ _ => ?_
  · refine (hkept ?_).symm
    rintro ⟨u, hu, -⟩
    rw [hs] at hu
    cases hu
  · rw [World.reason_of_session hu] at hkept
    have hsame {c : Chat} (hc : c = (⟨u, w.sh⟩ : Chat).touch now) : c.reason = u.jiraTask.keyReason := by
      rw [hc]
      rfl
    rw [wp_bind]
    refine wp_onSession hat₁ (wp_mono clickedIssue_wp ?_ ?_)
    · intro issue c hc w₂ hat₂ _
      cases hb : buttonOf q.data with
      | none =>
        refine hat₂.reason.trans ((hsame hc).trans (hkept ?_).symm)
        rintro ⟨_, _, _, b, hb', _⟩
        rw [hb] at hb'
        cases hb'
      | some b =>
        refine pressButton_leaves issue hat₂ ⟨fun h => ?_, fun h => ?_⟩
        · rw [hc] at h
          exact hemptied ⟨u, hu, h.1, b, hb, h.2⟩
        · refine (hkept ?_).trans (hsame hc).symm
          rintro ⟨u', hu', hclick, b', hb', hclears⟩
          obtain rfl := Option.some.inj (hu.symm.trans hu')
          obtain rfl := Option.some.inj (hb.symm.trans hb')
          rw [hc] at h
          exact h ⟨hclick, hclears⟩
    · intro stop c hfatal w₂ _ _ hgoes
      rw [hfatal] at hgoes
      cases hgoes

end

/-! ### All updates -/

section
variable {cfg : Config} {env : UpdateEnv} {m : Message} {q : CallbackQuery} {id : Int} {w w' : World} {r : Text}

/-- What is left after a message that reaches its handler. -/
theorem handleUpdate_message_leaves
    (hr : r = (facing cfg env w m).elim (w.reason m.from_.id) (NewTask.leftAt cfg env.smallTalk m)) :
    w.Leaves m.from_.id r (handleUpdate cfg env (.message m)) := by
  rw [facing_eq] at hr
  rw [World.Leaves, handleUpdate, wp_bind]
  refine wp_mono (wp_run sessionDispatcher_finds) ?_ ?_
  · rintro _ w₁ ⟨hrun, -, u, hat, htask⟩
    have hok : failure (sessionDispatcher cfg env.dispatcher env.now m) w = none := by
      rw [Program.failure, hrun]
    rw [if_pos hok, Option.elim_some, ← htask] at hr
    rw [handleSmallTalk]
    refine wp_ownSession hat _ fun w₂ hat₂ _ => ?_
    rw [hr]
    exact World.Leaves.of_chat hat₂ smallTalk_leaves
  · rintro stop w₁ ⟨hrun, hs⟩ _
    have hfailed : failure (sessionDispatcher cfg env.dispatcher env.now m) w ≠ none := by
      rw [Program.failure, hrun]
      exact Option.some_ne_none stop
    rw [if_neg hfailed, Option.elim_none] at hr
    rw [hr, World.reason, World.reason, World.session, World.session, hs]

/-- Both commands empty the task. -/
theorem onCommand_leaves {cenv : CommandEnv} {now : Int} {c : Chat} (name : Command) (hat : w.At m.from_.id c) :
    w.Leaves m.from_.id [] (onCommand cfg cenv now m name) := by
  cases name with
  | help =>
    rw [World.Leaves, onCommand]
    refine wp_ownSession hat now fun w₁ hat₁ _ => World.Leaves.of_chat hat₁ ?_
    simp only [Chat.Leaves, wp_bind, wp_modifyTask, wp_service, wp_call, wp_pure]
    exact ⟨fun _ _ => rfl, fun _ _ _ => rfl⟩
  | start =>
    rw [World.Leaves, onCommand]
    refine wp_ownSession hat now fun w₁ hat₁ _ => ?_
    rw [wp_bind]
    refine wp_onSession hat₁ ((wp_modifyTask _).mpr fun w₂ hat₂ _ => ?_)
    rw [onStartCommand]
    refine wp_ownSession hat₂ now fun w₃ hat₃ _ => ?_
    exact World.Leaves.of_chat hat₃ (.kept rfl)

theorem handleUpdate_command_leaves (name : Command) (hr : r =
      if failure (sessionDispatcher cfg env.dispatcher env.now m) w = none then [] else w.reason m.from_.id) :
    w.Leaves m.from_.id r (handleUpdate cfg env (.command name m)) := by
  rw [World.Leaves, handleUpdate, wp_bind]
  refine wp_mono (wp_run sessionDispatcher_finds) ?_ ?_
  · rintro _ w₁ ⟨hrun, -, u, hat, -⟩
    have hok : failure (sessionDispatcher cfg env.dispatcher env.now m) w = none := by
      rw [Program.failure, hrun]
    rw [if_pos hok] at hr
    rw [hr]
    exact onCommand_leaves name hat
  · rintro stop w₁ ⟨hrun, hs⟩ _
    have hfailed : failure (sessionDispatcher cfg env.dispatcher env.now m) w ≠ none := by
      rw [Program.failure, hrun]
      exact Option.some_ne_none stop
    rw [hr, if_neg hfailed, World.reason, World.reason, World.session, World.session, hs]

/-- The buttons that empty a task are open to everyone. -/
theorem Button.Clears.anyone {b : Button} (h : b.Clears env.callback) : roleForCallback b.data = .anyone := by
  cases b with
  | reqMasterKey | myTasks | newTask | newFamily | teklaBack => decide
  | _ => cases h

theorem handleUpdate_callback_leaves (hkey : ¬(isApprove q.data ∨ isReject q.data))
    (hr : (w.Emptied env.callback q → r = []) ∧ (¬w.Emptied env.callback q → r = w.reason q.from_.id)) :
    w.Leaves q.from_.id r (handleUpdate cfg env (.callback q)) := by
  rw [World.Leaves, handleUpdate]
  refine wp_ownClick hkey (fun hrole => (hr.2 ?_).symm) (ownCallback_leaves hr)
  rintro ⟨_, _, _, b, hb, hclears⟩
  rw [data_of_buttonOf hb, hclears.anyone] at hrole
  exact hrole (isAllowed_anyone _ _)

end

end Chanserv
