import Chanserv.Bot.Moves

/-! What a click does in the session of the user who clicked, between two
assignments of `uD`. -/
namespace Chanserv
open Text Program

section
variable {cfg : Config} {may : RequiredRole → Prop} {env : UpdateEnv} {q : CallbackQuery} {c : Chat}

/-- A handler that leaves the task and the lists alone. -/
theorem kept_of {x : Update} {r : Option Stop} {d : Chat} (h : opening env c.ud x = none)
    (hnotes : d.sh.notes = c.sh.notes) (htask : d.ud.jiraTask = c.ud.jiraTask)
    (hmsgs : d.ud.recentMsgs = c.ud.recentMsgs) (hids : d.ud.recentMsgIds = c.ud.recentMsgIds)
    (hr : r ≠ some .badAccess) : After may env x c r d :=
  .of (by rw [hnotes, List.append_nil]) (by rw [htask]; exact .kept h) hmsgs hids hr

theorem ifClicked_leads {m : ChatM Unit} (h : opening env c.ud (.callback q) = none)
    (hm : c.ud.clickedMsgId = q.messageId → Leads may env (.callback q) m c) :
    Leads may env (.callback q) (ifClicked q m) c := by
  simp only [Leads, ifClicked, wp_bind, wp_get, wp_guarded]
  exact ⟨hm, fun _ => kept_of h rfl rfl rfl rfl (by simp)⟩

theorem onReqMasterKey_leads (h : opening env c.ud (.callback q) = none) :
    Leads may env (.callback q) (onReqMasterKey env.callback q) c := by
  refine ifClicked_leads h fun _ => ?_
  simp only [Leads, say, wp_bind, wp_service, wp_modifyTask, wp_call, wp_pure]
  exact ⟨fun _ _ => .of (by simp) (.keyAsked h) rfl rfl (by simp),
    fun _ _ => .of (by simp) (.cleared h) rfl rfl (by simp)⟩

theorem openService_leads (h : opening env c.ud (.callback q) = none) {prompt type : Text} {stat : Nat}
    (hmay : may (roleForStep stat)) (hstat : stat ∈ serviceSteps) :
    Leads may env (.callback q) (openService env.callback q prompt type stat) c := by
  simp only [Leads, openService, say, wp_bind, wp_service, wp_modifyTask, wp_call, wp_pure]
  exact ⟨fun _ _ => .of (by simp) (.serviceOpened h hmay hstat) rfl rfl (by simp),
    fun _ _ => kept_of h (by simp) rfl rfl rfl (by simp)⟩

theorem onMsgToGpt_leads (h : opening env c.ud (.callback q) = none) (hmay : may .developer) :
    Leads may env (.callback q) (onMsgToGpt env.callback q) c := by
  simp only [Leads, onMsgToGpt, openService, say, wp_bind, wp_service, wp_modifyTask, wp_call, wp_pure]
  exact ⟨fun _ _ => ⟨fun _ _ => .of (by simp) (.serviceOpened h hmay (by decide)) rfl rfl (by simp),
    fun _ _ => kept_of h (by simp) rfl rfl rfl (by simp)⟩, fun _ _ => kept_of h (by simp) rfl rfl rfl (by simp)⟩

theorem onRebootHost_leads (h : opening env c.ud (.callback q) = none) (hmay : may .developer) :
    Leads may env (.callback q) (onRebootHost cfg env.callback q) c := by
  have he : Effect.privilege (.reboot cfg.scriptPathReboot) = some .developer := rfl
  simp only [Leads, onRebootHost, say, wp_bind, wp_service, wp_call, wp_pure]
  exact ⟨fun _ _ => ⟨fun _ _ => .of (by simp) (.commanded h he hmay) rfl rfl (by simp),
    fun _ _ => .of (by simp) (.commanded h he hmay) rfl rfl (by simp)⟩,
    fun _ _ => kept_of h (by simp) rfl rfl rfl (by simp)⟩

theorem onSendFile_leads (h : opening env c.ud (.callback q) = none) (hmay : may .developer) :
    Leads may env (.callback q) onSendFile c := by
  simp only [Leads, onSendFile, sendDocumentToAll, wp_inThread, wp_service, wp_bind, wp_get, wp_log]
  exact .of (by simp) (.commanded h (e := .broadcastFile c.sh.vConsumers) rfl hmay) rfl rfl (by simp)

theorem onNoMorePhotos_leads (hbutton : buttonOf q.data = some .noMorePhotos)
    (h : opening env c.ud (.callback q) = none) :
    Leads may env (.callback q) (onNoMorePhotos env.callback q) c := by
  simp only [Leads, onNoMorePhotos, say, wp_bind, wp_get, wp_guarded, wp_service, wp_modifyTask,
    wp_call, wp_pure]
  exact ⟨fun hstat => ⟨fun _ _ => .of (by simp) (.photosDone h hbutton hstat) rfl rfl (by simp),
    fun _ _ => kept_of h (by simp) rfl rfl rfl (by simp)⟩, fun _ => kept_of h rfl rfl rfl rfl (by simp)⟩

theorem onTeklaEnterMenu_leads (hbutton : buttonOf q.data = some .teklaEnterMenu)
    (h : opening env c.ud (.callback q) = none) :
    Leads may env (.callback q) (onTeklaEnterMenu env.callback q) c := by
  refine ifClicked_leads h fun hclick => ?_
  simp only [Leads, wp_bind, wp_service, wp_modifyTask, wp_call]
  exact ⟨fun _ hedit => .of (by simp) (.teklaMenu h ⟨hbutton, hclick, by rw [hedit]; trivial⟩) rfl rfl (by simp),
    fun _ _ => kept_of h (by simp) rfl rfl rfl (by simp)⟩

theorem onTeklaGeneralIssue_leads (hbutton : buttonOf q.data = some .teklaGeneralIssue) :
    Leads may env (.callback q) (onTeklaGeneralIssue env.callback q) c := by
  have hopen : opening env c.ud (.callback q) =
      if env.callback.deleteMessage.Normal ∧ env.callback.prompt.Normal then some .tekla else none := by
    rw [opening, hbutton]
  simp only [Leads, onTeklaGeneralIssue, say, wp_bind, wp_service, wp_modifyTask, wp_call, wp_pure]
  refine ⟨fun _ hdel => ⟨fun _ hprompt => ?_, fun _ hprompt => ?_⟩, fun _ hdel => ?_⟩
  · exact .of (by simp) (.opened (d := .tekla) (by rw [hopen, hdel, hprompt]; rfl)) rfl rfl (by simp)
  · exact kept_of (by rw [hopen, hprompt]; simp [Reply.Normal]) (by simp) rfl rfl rfl (by simp)
  · exact kept_of (by rw [hopen, hdel]; simp [Reply.Normal]) (by simp) rfl rfl rfl (by simp)

theorem onTeklaBack_leads (h : opening env c.ud (.callback q) = none) :
    Leads may env (.callback q) (onTeklaBack env.callback q) c := by
  refine ifClicked_leads h fun _ => ?_
  simp only [Leads, wp_bind, wp_service, wp_modifyTask, wp_call]
  exact ⟨fun _ _ => .of (by simp) (.cleared h) rfl rfl (by simp),
    fun _ _ => kept_of h (by simp) rfl rfl rfl (by simp)⟩

theorem onStartSolving_leads (h : opening env c.ud (.callback q) = none) (issue : PgdbIssue) :
    Leads may env (.callback q) (onStartSolving env.callback q issue) c := by
  simp only [Leads, onStartSolving, changeCardColor, wp_bind, wp_get, wp_guarded, wp_catchingTg,
    wp_service, wp_modifySession, wp_call, wp_pure]
  refine ⟨fun _ => ⟨fun _ _ => ⟨fun _ _ => ⟨fun _ _ => ?_, fun _ _ => ?_⟩, fun _ _ => ?_⟩,
    fun x _ => ?_⟩, fun _ => ?_⟩
  case refine_4 =>
    cases x with
    | tgException =>
      exact ⟨fun _ _ => ⟨fun _ _ => kept_of h (by simp) rfl rfl rfl (by simp),
        fun _ _ => kept_of h (by simp) rfl rfl rfl (by simp)⟩, fun _ _ => kept_of h (by simp) rfl rfl rfl (by simp)⟩
    | stdException => exact kept_of h (by simp) rfl rfl rfl (by simp)
  all_goals exact kept_of h (by simp) rfl rfl rfl (by simp)

theorem onTaskClosing_leads (h : opening env c.ud (.callback q) = none) (issue : PgdbIssue) :
    Leads may env (.callback q) (onTaskClosing cfg env.callback q issue) c := by
  have hleft {sh : Shared} (hsh : sh.notes = c.sh.notes) {r : Option Stop} (hr : r ≠ some .badAccess) :
      After may env (.callback q) c r ⟨{c.ud with clickedMsgId := 0}, sh⟩ :=
    kept_of h hsh rfl rfl rfl hr
  have hdeletes : ∀ m ∈ [ archivingCard issue.idCard env.callback.archive,
      do let _ ← deleteIssueFromDb issue.idCard env.callback.deleteIssue ], Silent m := by
    intro m hm
    rcases List.mem_cons.mp hm with rfl | hm
    · exact Silent.call rfl
    · rw [List.mem_singleton.mp hm]
      exact (Silent.sql rfl).bind fun _ => Keeps.done _
  simp only [Leads, onTaskClosing, wp_bind, wp_get, wp_guarded, wp_service, wp_modifySession, wp_call]
  refine ⟨fun _ => ⟨fun _ _ => ⟨fun _ _ => ?_, fun _ _ => hleft (by simp) (by simp)⟩,
    fun _ _ => kept_of h (by simp) rfl rfl rfl (by simp)⟩, fun _ => kept_of h rfl rfl rfl rfl (by simp)⟩
  refine wp_mono (Silent.besideNotice hdeletes _) (fun _ sh hsh => ?_) fun stop sh hsh => ?_
  · exact hleft (by simpa using hsh) (by simp)
  · exact hleft (by simpa using hsh.2) fun hstop => hsh.1 (Option.some.inj hstop)

end

end Chanserv
