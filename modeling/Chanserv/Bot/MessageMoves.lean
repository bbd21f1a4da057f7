import Chanserv.Bot.Moves

/-! Every handler makes one of the moves. -/
namespace Chanserv
open Text Program

variable {cfg : Config}

/-! ### Filing a task -/

/-- What filing a task leaves as it is until it is done. -/
def Chat.mark (c : Chat) : List Effect × Nat × List MostRecentMsgs × List Int :=
  (c.sh.notes, c.ud.jiraTask.stat, c.ud.recentMsgs, c.ud.recentMsgIds)

abbrev Unmarked {α : Type} (m : ChatM α) : Prop := Keeps Chat.mark (fun stop => stop.fatal = false) m

namespace Unmarked
variable {α : Type}

theorem service {m : ServiceM α} (h : Silent m) : Unmarked (service m) :=
  Keeps.zoom h fun c sh hs => by rw [Chat.mark, Chat.mark, hs]

theorem modifySession {f : UserDispatcher → UserDispatcher}
    (h : ∀ u, (f u).jiraTask.stat = u.jiraTask.stat ∧ (f u).recentMsgs = u.recentMsgs ∧
      (f u).recentMsgIds = u.recentMsgIds) : Unmarked (modifySession f) := fun c => by
  obtain ⟨hstat, hmsgs, hids⟩ := h c.ud
  show Chat.mark {c with ud := f c.ud} = c.mark
  rw [Chat.mark, Chat.mark, hstat, hmsgs, hids]

theorem catching {m : ChatM α} {h : Exn → ChatM α} (hm : Unmarked m) (hh : ∀ e, Unmarked (h e)) :
    Unmarked (catching m h) :=
  Keeps.handling hm fun stop hstop => by
    cases stop with
    | throws e => exact hh e
    | _ => cases hstop

end Unmarked

section
variable (env : CreateIssueEnv)

theorem writeIssueToDb_silent (task : NewTask) (table : IssueTable) :
    Silent (writeIssueToDb task table env) := by
  refine Silent.catching ((Silent.sql rfl).bind fun _ => Keeps.ite ?_ (Keeps.done _))
    fun _ => Keeps.done _
  exact Silent.call rfl

theorem fileCard_unmarked (head : Text) : Unmarked (fileCard cfg env head) := by
  refine Keeps.reads.bind fun c => Keeps.bind (Unmarked.catching
    (Keeps.bind (Unmarked.service Silent.createNewCard) fun card => ?_)
    fun _ => Unmarked.service Silent.sendTaskToSupport) fun _ => ?_
  · cases card with
    | ok id => exact Unmarked.modifySession fun u => ⟨rfl, rfl, rfl⟩
    | error e => exact Unmarked.service Silent.sendTaskToSupport
  · exact Unmarked.modifySession fun u => ⟨rfl, rfl, rfl⟩

theorem fileRow_unmarked : Unmarked (fileRow cfg env) :=
  Keeps.reads.bind fun _ => Unmarked.service <| Silent.catching
    ((writeIssueToDb_silent env _ _).bind fun _ => Keeps.guarded fun _ => Silent.sendTaskToSupport)
    fun _ => Silent.sendTaskToSupport

theorem fileImages_unmarked : Unmarked (fileImages env) :=
  Keeps.reads.bind fun _ => Keeps.guarded fun _ => Unmarked.service <|
    Keeps.forEach fun _ _ => Silent.call rfl

theorem thankUser_unmarked (message : Message) : Unmarked (thankUser cfg env message) := by
  refine Keeps.bind (Unmarked.service (Silent.call rfl)) fun _ => ?_
  cases cfg.stickerList[env.sticker % cfg.stickerList.length]? with
  | none => exact Keeps.done _
  | some sticker => exact (Unmarked.service (Silent.call rfl)).bind fun _ => Keeps.done _

theorem fileAttachments_unmarked (issueNum : Int) : Unmarked (fileAttachments cfg env issueNum) :=
  Keeps.reads.bind fun _ => Keeps.bind
    (Unmarked.service (Keeps.forEach fun _ _ => Silent.call rfl)) fun _ =>
      Keeps.guarded fun _ => Unmarked.service ((Silent.call rfl).bind fun _ => Keeps.done _)

theorem fileInJira_unmarked (head : Text) : Unmarked (fileInJira cfg env head) := by
  have hreport {info : Text} {task : NewTask} {r : Sending} : Unmarked (do
      service (sendTaskToSupport cfg info task .goDashboard r)
      modifySession fun u => {u with lastError := 1}) :=
    (Unmarked.service Silent.sendTaskToSupport).bind fun _ =>
      Unmarked.modifySession fun u => ⟨rfl, rfl, rfl⟩
  exact Keeps.reads.bind fun c => Unmarked.catching
    (Keeps.bind (Unmarked.service Silent.createTask) fun _ =>
      Keeps.ite hreport (fileAttachments_unmarked env _)) fun _ => hreport

theorem notifyStaff_marked : Keeps Chat.mark (· ≠ .badAccess) (notifyStaff cfg env) :=
  Keeps.reads.bind fun _ => Keeps.handling (Unmarked.service Silent.sendMsgToStaff)
    fun stop hstop => by
      cases stop with
      | throws e => exact Keeps.fails (by simp)
      | _ => cases hstop

/-- Until the task is cleared nothing a move could tell changes. -/
theorem submitTask_marked (message : Message) :
    Keeps Chat.mark (· ≠ .badAccess) (submitTask cfg env message) := by
  have hweak {α : Type} {m : ChatM α} (h : Unmarked m) : Keeps Chat.mark (· ≠ .badAccess) m :=
    h.mono fun stop hstop => by rintro rfl; cases hstop
  refine (hweak (Unmarked.service (Silent.call rfl))).bind fun _ => Keeps.bind ?_ fun _ =>
    Keeps.reads.bind fun c => Keeps.bind ?_ fun _ => Keeps.bind (Keeps.guarded fun _ => ?_) fun _ =>
      (hweak (thankUser_unmarked env message)).bind fun _ => hweak (fileInJira_unmarked env _)
  · exact Keeps.writes fun _ => rfl
  · exact Keeps.writes fun _ => rfl
  · exact (hweak (fileCard_unmarked env _)).bind fun _ => (hweak (fileRow_unmarked env)).bind fun _ =>
      (hweak (fileImages_unmarked env)).bind fun _ => notifyStaff_marked env

end

section
variable {may : RequiredRole → Prop} {env : UpdateEnv} {m : Message} {c : Chat}

/-- Filing, from a chat that differs from the one before by a completed task. -/
theorem createNewIssue_leads {c' : Chat} (hsub : submitted m c.ud.jiraTask = some c'.ud.jiraTask)
    (hmark : c'.mark = (c.sh.notes, sharedFinalStep7, c.ud.recentMsgs, c.ud.recentMsgIds))
    (ienv : CreateIssueEnv) :
    wp (inThread (createNewIssue cfg ienv m)) (fun _ => After may env (.message m) c none)
      (fun stop => After may env (.message m) c (some stop)) c' := by
  simp only [Chat.mark, Prod.mk.injEq] at hmark
  obtain ⟨hnotes, hstat, hmsgs, hids⟩ := hmark
  simp only [wp_inThread, createNewIssue, wp_bind, wp_get, wp_service, wp_log]
  refine wp_mono (submitTask_marked ienv m _) (fun _ d hd => ?_) fun stop d hd => ?_
  · simp only [Chat.mark, Prod.mk.injEq, Shared.notes_log] at hd
    exact .of (by simp [hd.1, hnotes]) (.filed hsub (.inl rfl)) (hd.2.2.1.trans hmsgs)
      (hd.2.2.2.trans hids) (by simp)
  · obtain ⟨hstop, hd⟩ := hd
    simp only [Chat.mark, Prod.mk.injEq, Shared.notes_log] at hd
    have hafter {stop : Stop} (hfatal : stop.fatal) (haccess : stop ≠ .badAccess) :
        After may env (.message m) c (some stop) d :=
      .of (by simp [hd.1, hnotes]) (.filed hsub (.inr ⟨⟨stop, rfl, hfatal⟩, hd.2.1.trans hstat⟩))
        (hd.2.2.1.trans hmsgs) (hd.2.2.2.trans hids) (by simpa using haccess)
    cases stop with
    | throws e => exact hafter rfl (by simp)
    | _ => exact hafter rfl hstop

/-! ### Small talk -/

theorem questionAt_record_stat {stat : Nat} {text : Text} {question : Question}
    (h : questionAt stat text = some question) (answer : Text) (t : NewTask) :
    (question.record answer t).stat = t.stat := by
  unfold questionAt at h
  split at h <;> try cases h
  all_goals first | rfl | (split at h <;> cases h; rfl)

theorem ask_leads {question : Question} (h : questionAt c.ud.jiraTask.stat m.text = some question)
    (receiver : Int) :
    Leads may env (.message m) (question.ask env.smallTalk receiver m.text) c := by
  simp only [Leads, Question.ask, wp_bind, wp_service, wp_modifyTask, wp_call]
  exact ⟨fun _ _ => .of (by simp) (.answered h (.inr rfl)) rfl rfl (by simp),
    fun _ _ => .of (by simp)
      (.answered h (.inl (questionAt_record_stat h _ c.ud.jiraTask))) rfl rfl (by simp)⟩

theorem masterKeyFirstname_leads (h : c.ud.jiraTask.stat = revitMasterKeyFirstnameStep2) :
    Leads may env (.message m) (masterKeyFirstname cfg env.smallTalk m) c := by
  have hnamed {r : Option Stop} {d : Chat} (hnotes : d.sh.notes = c.sh.notes)
      (hud : d.ud.recentMsgs = c.ud.recentMsgs ∧ d.ud.recentMsgIds = c.ud.recentMsgIds)
      {stat : Nat} (hstat : stat = c.ud.jiraTask.stat ∨ stat = 0)
      (htask : d.ud.jiraTask =
        {c.ud.jiraTask with consumerName := cleanDescription m.text, stat})
      (hr : r ≠ some .badAccess) : After may env (.message m) c r d :=
    .of (by rw [hnotes, List.append_nil]) (by rw [htask]; exact .named h hstat) hud.1 hud.2 hr
  have hprompt : ∀ t ∈ [do let _ ← call (.sendMessage (.user m.chat.id) (of "Ожидайте одобрения")) env.smallTalk.prompt],
      Silent t := by
    intro t ht
    rw [List.mem_singleton.mp ht]
    exact (Silent.call rfl).bind fun _ => Keeps.done _
  simp only [Leads, masterKeyFirstname, wp_bind, wp_service, wp_modifyTask, wp_get]
  refine wp_mono (Silent.besideNotice hprompt _) (fun _ sh hsh => ?_) fun stop sh hsh => ?_
  · exact hnamed (by simpa using hsh) ⟨rfl, rfl⟩ (.inr rfl) rfl (by simp)
  · exact hnamed hsh.2 ⟨rfl, rfl⟩ (.inl rfl) rfl fun hstop => hsh.1 (Option.some.inj hstop)

/-- A service step performs its one effect, and clears the task unless it is cut short. -/
theorem served_of {e : Effect} {r : Option Stop} {d : Chat}
    (he : e.privilege = some (roleForStep c.ud.jiraTask.stat))
    (hmay : may (roleForStep c.ud.jiraTask.stat)) (hnotes : d.sh.notes = c.sh.notes ++ [e])
    (hud : d.ud = c.ud ∨ d.ud = {c.ud with jiraTask := {}}) (hr : r ≠ some .badAccess) :
    After may env (.message m) c r d := by
  obtain hud | hud := hud
  · exact .of hnotes (.served he hmay (.inl (by rw [hud]))) (by rw [hud]) (by rw [hud]) hr
  · exact .of hnotes (.served he hmay (.inr (by rw [hud]))) (by rw [hud]) (by rw [hud]) hr

/-- A service step that refuses its text clears the task. -/
theorem refused_of {r : Option Stop} {d : Chat} (hnotes : d.sh.notes = c.sh.notes)
    (hud : d.ud = c.ud ∨ d.ud = {c.ud with jiraTask := {}}) (hr : r ≠ some .badAccess) :
    After may env (.message m) c r d := by
  have hnotes : d.sh.notes = c.sh.notes ++ [] := by rw [hnotes, List.append_nil]
  obtain hud | hud := hud
  · exact .of hnotes (by rw [hud]; exact .kept rfl) (by rw [hud]) (by rw [hud]) hr
  · exact .of hnotes (by rw [hud]; exact .cleared rfl) (by rw [hud]) (by rw [hud]) hr

theorem staffSetMsiVersion_leads (h : c.ud.jiraTask.stat = staffSetNewMsiVersion)
    (hmay : may (roleForStep c.ud.jiraTask.stat)) :
    Leads may env (.message m) (staffSetMsiVersion env.smallTalk m) c := by
  have he : Effect.privilege (.setMsiVersion m.text) = some (roleForStep c.ud.jiraTask.stat) := by
    rw [h]; rfl
  simp only [Leads, staffSetMsiVersion, wp_bind, wp_service, wp_modifyTask, wp_call, wp_sql]
  repeat' first | apply And.intro | intro _
  all_goals exact served_of he hmay (by simp) (by simp) (by simp)

theorem staffAddContractor_leads (h : c.ud.jiraTask.stat = staffAddNewContractor)
    (hmay : may (roleForStep c.ud.jiraTask.stat)) :
    Leads may env (.message m) (staffAddContractor env.smallTalk m) c := by
  unfold Leads staffAddContractor
  dsimp only
  split
  · simp only [wp_bind, wp_service, wp_modifyTask, wp_call]
    exact ⟨fun _ _ => refused_of (by simp) (.inr rfl) (by simp),
      fun _ _ => refused_of (by simp) (.inl rfl) (by simp)⟩
  · next row hrow =>
    have he : Effect.privilege (.insertContractor row) = some (roleForStep c.ud.jiraTask.stat) := by
      rw [h]; rfl
    have hreload {s : Shared} (hs : s.notes = c.sh.notes ++ [.insertContractor row]) :
        wp (reloadContractorsList env.smallTalk.selectContractors)
          (fun _ sh => After may env (.message m) c none ⟨{c.ud with jiraTask := {}}, sh⟩)
          (fun stop sh => After may env (.message m) c (some stop) ⟨c.ud, sh⟩) s :=
      wp_mono (Silent.reloadContractorsList.from_ rfl)
        (fun _ sh hsh => served_of he hmay (hsh.trans hs) (.inr rfl) (by simp))
        fun stop sh hsh => served_of he hmay (hsh.2.trans hs) (.inl rfl)
          (by rintro ⟨rfl⟩; cases hsh.1)
    simp only [wp_bind, wp_service, wp_modifyTask, wp_call, wp_sql, Bool.false_eq_true, ↓reduceIte]
    refine ⟨fun _ => ⟨fun _ _ => ?_, fun _ _ => ?_⟩, fun _ => ⟨fun _ _ => ?_, fun _ _ => ?_⟩,
      fun _ _ => ?_⟩
    · exact hreload (by simp)
    all_goals exact served_of he hmay (by simp) (by simp) (by simp)

theorem developerMsgAsBot_leads (h : c.ud.jiraTask.stat = developerSendMsgAsBot)
    (hmay : may (roleForStep c.ud.jiraTask.stat)) :
    Leads may env (.message m) (developerMsgAsBot env.smallTalk m) c := by
  have he : Effect.privilege (.sendAsBot (atol (before ' ' m.text)) (after ' ' m.text)) =
      some (roleForStep c.ud.jiraTask.stat) := by
    rw [h]; rfl
  simp only [Leads, developerMsgAsBot, wp_bind, wp_service, wp_modifyTask, wp_catchingTg, wp_call,
    wp_pure]
  refine ⟨fun _ _ => ⟨fun _ _ => ?_, fun _ _ => ?_⟩, fun x _ => ?_⟩
  rotate_right
  · cases x with
    | tgException =>
      refine ⟨fun _ _ => ⟨fun _ _ => ?_, fun _ _ => ?_⟩, fun _ _ => ?_⟩
      all_goals exact served_of he hmay (by simp) (by simp) (by simp)
    | stdException => exact served_of he hmay (by simp) (by simp) (by simp)
  all_goals exact served_of he hmay (by simp) (by simp) (by simp)

theorem developerHostCommand_leads (h : c.ud.jiraTask.stat = developerRunHostCommand)
    (hmay : may (roleForStep c.ud.jiraTask.stat)) :
    Leads may env (.message m) (developerHostCommand cfg env.smallTalk m) c := by
  have he : Effect.privilege (.runCommand (commandLine m.text).1 (commandLine m.text).2) =
      some (roleForStep c.ud.jiraTask.stat) := by
    rw [h]; rfl
  simp only [Leads, developerHostCommand, wp_bind, wp_service, wp_call]
  refine ⟨fun output _ => ?_, fun _ _ => served_of he hmay (by simp) (by simp) (by simp)⟩
  cases output <;>
  · simp only [wp_service, sendMsgToSupport, wp_bind, wp_call, wp_pure]
    exact ⟨fun _ _ => served_of he hmay (by simp) (by simp) (by simp),
      fun _ _ => served_of he hmay (by simp) (by simp) (by simp)⟩

/-- The photo step keeps everything but the three fields of its files. -/
def Photographed (c c' : Chat) : Prop :=
  c'.sh.notes = c.sh.notes ∧ ∃ vLocalFilePaths photoIDs vDocuIds,
    c'.ud = {c.ud with jiraTask := {c.ud.jiraTask with vLocalFilePaths, photoIDs, vDocuIds}}

theorem Photographed.refl (c : Chat) : Photographed c c := ⟨rfl, _, _, _, rfl⟩

theorem receiveFile_photographed {filePath uuid : Text} {r : Answer Download} {c' : Chat}
    (h : Photographed c c') :
    wp (receiveFile cfg filePath uuid r) (fun _ => Photographed c)
      (fun stop d => stop.fatal = false ∧ Photographed c d) c' := by
  obtain ⟨hnotes, paths, ids, docs, hud⟩ := h
  simp only [receiveFile, wp_guarded, wp_bind, wp_service, wp_modifyTask, wp_call]
  exact ⟨fun _ => ⟨fun _ _ => ⟨by simpa using hnotes, _, _, _, by rw [hud]⟩,
    fun _ _ => ⟨rfl, by simpa using hnotes, _, _, _, hud⟩⟩, fun _ => ⟨hnotes, _, _, _, hud⟩⟩

theorem receivePhotos_photographed (penv : PhotosEnv) :
    wp (receivePhotos cfg penv m) (fun _ => Photographed c) (fun _ _ => False) c := by
  have hlog {d : Chat} (h : Photographed c d) (fileId : Text) :
      Photographed c {d with sh := d.sh.log (.getFile fileId)} :=
    ⟨by simpa using h.1, h.2⟩
  have hphoto : wp (guarded (m.photo ≠ []) do
      let filePath ← service (call (.getFile (biggestPhoto m)) penv.photoPath)
      receiveFile cfg filePath penv.photoUuid penv.photo
      modifyTask fun t => {t with photoIDs := t.photoIDs ++ biggestPhoto m ++ of "\\n"})
      (fun _ => Photographed c) (fun stop d => stop.fatal = false ∧ Photographed c d) c := by
    simp only [wp_guarded, wp_bind, wp_service, wp_call, wp_modifyTask]
    refine ⟨fun _ => ⟨fun _ _ => ?_, fun _ _ => ⟨rfl, hlog (.refl c) _⟩⟩, fun _ => .refl c⟩
    refine wp_mono (receiveFile_photographed (hlog (.refl c) _)) (fun _ d hd => ?_) fun _ _ => id
    obtain ⟨hnotes, paths, ids, docs, hud⟩ := hd
    exact ⟨hnotes, _, _, _, by rw [hud]⟩
  unfold receivePhotos
  apply wp_catching_of (R := Photographed c)
  · rw [wp_bind]
    refine wp_mono hphoto (fun _ d hd => ?_) fun _ _ => id
    cases m.document with
    | none => exact hd
    | some fileId =>
      simp only [wp_bind, wp_service, wp_call, wp_modifyTask]
      refine ⟨fun _ _ => ?_, fun _ _ => ⟨rfl, hlog hd _⟩⟩
      obtain ⟨hnotes, paths, ids, docs, hud⟩ := hd
      apply receiveFile_photographed
      exact ⟨by simpa using hnotes, paths, ids, docs ++ [fileId ++ of "\n"], by rw [hud]⟩
  · intro _ d hd
    exact hd

theorem sharedFirstname_leads (h : c.ud.jiraTask.stat = sharedFirstnameStep5) :
    Leads may env (.message m) (sharedFirstname cfg env.smallTalk m) c := by
  unfold sharedFirstname
  split
  · next htext =>
    rw [Leads, wp_inThread]
    refine wp_mono (receivePhotos_photographed env.smallTalk.photos) (fun _ d hd => ?_)
      fun _ _ => False.elim
    obtain ⟨hnotes, paths, ids, docs, hud⟩ := hd
    exact .of (by rw [hnotes, List.append_nil]) (by rw [hud]; exact .photographed h htext)
      (by rw [hud]) (by rw [hud]) (by simp)
  · next htext =>
    exact ask_leads (by rw [h]; exact if_neg htext) _

theorem sharedSeparateTeklaFromBim_leads
    (h : c.ud.jiraTask.stat = sharedSeparateTeklaFromBimStep6) :
    Leads may env (.message m) (sharedSeparateTeklaFromBim cfg env.smallTalk m) c := by
  unfold Leads sharedSeparateTeklaFromBim
  rw [wp_guarded]
  refine ⟨fun htext => ?_, fun _ => .of (by simp) (.kept rfl) rfl rfl (by simp)⟩
  rw [wp_bind, wp_modifyTask]
  have hsub : submitted m c.ud.jiraTask = some (completed m c.ud.jiraTask) := if_pos ⟨h, htext⟩
  exact createNewIssue_leads hsub rfl _

/-- Every step of the `switch`. -/
theorem answerStep_leads (hmay : may (roleForStep c.ud.jiraTask.stat)) :
    Leads may env (.message m) (answerStep cfg env.smallTalk m c.ud.jiraTask.stat) c := by
  unfold answerStep
  split
  case h_1 h => exact masterKeyFirstname_leads h
  case h_3 h => exact staffAddContractor_leads h hmay
  case h_4 h => exact developerMsgAsBot_leads h hmay
  case h_5 h => exact developerHostCommand_leads h hmay
  case h_6 h => exact staffSetMsiVersion_leads h hmay
  case h_7 h => exact sharedSeparateTeklaFromBim_leads h
  case h_8 h =>
    exact createNewIssue_leads (by rw [submitted, h]; rfl) (by rw [Chat.mark, h]) _
  case h_13 h => exact sharedFirstname_leads h
  case h_18 => exact .of (by simp) (.kept rfl) rfl rfl (by simp)
  all_goals next h => exact ask_leads (by rw [h]; rfl) _

theorem smallTalk_leads (hmay : cfg.hasRole m.from_.id (roleForStep c.ud.jiraTask.stat) →
      may (roleForStep c.ud.jiraTask.stat)) :
    Leads may env (.message m) (smallTalk cfg env.smallTalk m) c := by
  simp only [Leads, smallTalk, wp_bind, wp_get, wp_ite, wp_modifyTask]
  exact ⟨fun h => answerStep_leads (hmay h), fun _ => refused_of rfl (.inr rfl) (by simp)⟩

end

end Chanserv
