import Chanserv.Bot.Calm
import Chanserv.Staff

/-! When the threads complete.

An exception that leaves the body of a thread ends the process. For each body
that a thread runs this module says which answers of the world it survives:
filing a task, telling the staff, listing a contractor's issues. -/
namespace Chanserv
open Text Program

section
variable {cfg : Config}

/-! ### Telling the staff -/

theorem sendMsgToStaff_completes {text : Text} {kb : Keyboard} {r : Nat → Sending}
    (h : StaffSpared cfg r) (sh : Shared) : Completes (sendMsgToStaff cfg text kb r) sh := by
  refine wp_forEach (I := fun _ => True) (fun i hi sh _ => ?_) trivial
  obtain ⟨employee, n⟩ := i
  have hn := (List.mem_zipIdx hi).2.1
  rw [wp_catchingTg, wp_bind, wp_call]
  refine ⟨fun _ _ => trivial, fun e he => ?_⟩
  cases e with
  | tgException => trivial
  | stdException => exact absurd he (h n (by simpa using hn))

/-! ### Listing issues -/

/-- The rows the SELECT of `get_my_issues` yields. -/
def myRows (env : MyIssuesEnv) (db : Db) (receiver : Int) : List IssueRow :=
  if env.selectIssues = .returns true then
    db.issues.filter fun row => row.contractorId = itoa receiver
  else []

theorem sendIssue_completes {receiver : Int} {issue : PgdbIssue} {r : Sending} (h : r.Normal)
    {sh : Shared} : Completes (sendIssue receiver issue r) sh := by
  unfold sendIssue Completes
  split
  all_goals exact (wp_call _ _).mpr ⟨fun _ _ => trivial, fun _ he => h.not_throws he⟩

/-- Every message of the list can be sent. -/
structure ListSafe (cfg : Config) (env : MyIssuesEnv) (db : Db) (receiver : Int) : Prop where
  select : env.selectIssues.Normal
  shown : ∀ i < (myRows env db receiver).length, (env.show_ i).Normal
  none_ : env.selectIssues = .returns true → myRows env db receiver = [] →
    env.noTasks.Normal ∧ (cfg.stickerNoTasks ≠ [] → env.sticker.Normal)

theorem showMyIssues_completes {env : MyIssuesEnv} {receiver : Int} {c : Chat}
    (h : ListSafe cfg env c.sh.db receiver) : Completes (showMyIssues cfg env receiver) c := by
  have hrest (rows : List IssueRow) (hrows : rows = myRows env c.sh.db receiver) (d : Chat) :
      Completes (showRows cfg env receiver rows) d := by
    unfold Completes showRows
    rw [wp_bind, wp_modifySession, wp_bind]
    refine wp_mono (wp_forEach (I := fun _ => True) (fun i hi d _ => ?_) trivial) (fun _ d _ => ?_)
      fun _ _ => id
    · obtain ⟨row, n⟩ := i
      have hn : n < (myRows env c.sh.db receiver).length := by
        have := (List.mem_zipIdx hi).2.1
        rw [← hrows]
        simpa using this
      rw [wp_bind, wp_service]
      exact wp_mono (sendIssue_completes (h.shown n hn)) (fun _ _ _ => trivial) fun _ _ => id
    · simp only [wp_guarded, wp_bind, wp_service, wp_call, wp_pure]
      refine ⟨fun hnone => ?_, fun _ => trivial⟩
      obtain ⟨hno, hsticker⟩ := h.none_ hnone.2 (hrows ▸ hnone.1)
      exact ⟨fun _ _ => ⟨fun hs => ⟨fun _ _ => trivial, fun _ he => (hsticker hs).not_throws he⟩,
        fun _ => trivial⟩, fun _ he => hno.not_throws he⟩
  unfold Completes showMyIssues
  rw [wp_bind, wp_service, wp_select]
  refine ⟨fun hr => hrest _ ?_ _, fun hr => hrest _ ?_ _, fun _ he => h.select.not_throws he⟩
  · rw [myRows, if_pos hr]
    rfl
  · rw [myRows, hr, if_neg (by decide)]

/-! ### Filing a task -/

/-- The card is created, or the failure is reported in the end. -/
def CardSafe (env : CreateIssueEnv) : Prop :=
  match cardOutcome env.newCard with
  | .returns (.ok _) => True
  | .returns (.error _) => env.cardReport.Normal ∨ env.cardThrewReport.Normal
  | .throws _ => env.cardThrewReport.Normal

/-- The row is written, or the failure is reported in the end. -/
def RowSafe (env : CreateIssueEnv) : Prop :=
  (env.insertIssue = .returns true ∧ env.commit = .returns true) ∨ env.rowReport.Normal ∨
    env.rowThrewReport.Normal

/-- The images of a card that was created can be added. -/
def ImagesSafe (env : CreateIssueEnv) (images : Nat) : Prop :=
  ∀ id, cardOutcome env.newCard = .returns (.ok id) → id ≠ [] → ∀ i < images, (env.addImg i).Normal

/-- Jira's part fails nowhere, or the failure is reported. -/
def JiraSafe (env : CreateIssueEnv) (task : NewTask) : Prop :=
  env.taskThrewReport.Normal ∨
    match taskOutcome env.newTask with
    | .throws _ => False
    | .returns n =>
      if n < 3 then env.taskReport.Normal
      else (∀ i < task.vLocalFilePaths.length, (env.addAttach i).Normal) ∧
        (isTekla task → env.teklaAdmin.Normal)

/-- The answers with which `create_new_issue` completes. -/
structure FilingSafe (cfg : Config) (env : CreateIssueEnv) (task : NewTask) : Prop where
  accepted : env.accepted.Normal
  card : isTekla task = false → CardSafe env
  row : isTekla task = false → RowSafe env
  images : isTekla task = false → ImagesSafe env task.vLocalFilePaths.length
  staff : isTekla task = false → StaffSpared cfg env.staff
  thanks : env.thanks.Normal
  sticker : cfg.stickerList ≠ [] → env.sendSticker.Normal
  jira : JiraSafe env task

/-- Filing leaves the type of a task and its files as they are. -/
def SameFiles (c d : Chat) : Prop :=
  isTekla d.ud.jiraTask = isTekla c.ud.jiraTask ∧
    d.ud.jiraTask.vLocalFilePaths = c.ud.jiraTask.vLocalFilePaths

variable {env : CreateIssueEnv} {head : Text} {c : Chat}

/-- A report to support that may fail only where the failure is caught. -/
theorem report_wp {info : Text} {task : NewTask} {kb : Keyboard} {r : Sending}
    {Q : Unit → Shared → Prop} {E : Stop → Shared → Prop} {sh : Shared}
    (hQ : r.Normal → ∀ sh', sh'.db = sh.db → Q () sh')
    (hE : ¬r.Normal → ∀ e sh', sh'.db = sh.db → E (.throws e) sh') :
    wp (sendTaskToSupport cfg info task kb r) Q E sh := by
  simp only [sendTaskToSupport, sendMsgToSupport, wp_bind, wp_call, wp_pure]
  refine ⟨fun _ hr => hQ (hr ▸ trivial) _ rfl, fun e hr => hE (fun h => h.not_throws hr) e _ rfl⟩

theorem fileCard_completes (h : CardSafe env) :
    wp (fileCard cfg env head) (fun _ d => SameFiles c d ∧
        (d.ud.createdCardId = c.ud.createdCardId ∨
          cardOutcome env.newCard = .returns (.ok d.ud.createdCardId)))
      (fun _ _ => False) c := by
  have hdone (sh : Shared) : SameFiles c
      ⟨{c.ud with jiraTask := {c.ud.jiraTask with idCard := c.ud.createdCardId}}, sh⟩ := ⟨rfl, rfl⟩
  rw [fileCard, wp_bind, wp_get, wp_bind, wp_catching, wp_bind, wp_service, createNewCard_eq, wp_call]
  refine ⟨fun card hcard => ?_, fun e he => ?_⟩
  · rw [CardSafe, hcard] at h
    cases card with
    | ok id => exact ⟨⟨rfl, rfl⟩, .inr hcard⟩
    | error code =>
      rw [wp_service]
      refine report_wp (fun _ sh _ => ⟨hdone sh, .inl rfl⟩) fun hr e sh _ => ?_
      rw [wp_service]
      exact report_wp (fun _ sh _ => ⟨hdone sh, .inl rfl⟩) fun hr' => (h.elim hr hr').elim
  · rw [CardSafe, he] at h
    rw [wp_service]
    exact report_wp (fun _ sh _ => ⟨hdone sh, .inl rfl⟩) fun hr => (hr h).elim

theorem fileRow_completes (h : RowSafe env) :
    wp (fileRow cfg env) (fun _ d => d.ud = c.ud) (fun _ _ => False) c := by
  have hwritten (task : NewTask) (table : IssueTable) {Q : Bool → Shared → Prop}
      {E : Stop → Shared → Prop} (sh : Shared)
      (htrue : ∀ sh', env.insertIssue = .returns true ∧ env.commit = .returns true → Q true sh')
      (hfalse : ∀ sh', ¬(env.insertIssue = .returns true ∧ env.commit = .returns true) → Q false sh') :
      wp (writeIssueToDb task table env) Q E sh := by
    simp only [writeIssueToDb, wp_catching, wp_bind, wp_sql, wp_ite, wp_call, wp_pure]
    refine ⟨fun hi => ⟨fun _ => ⟨fun ok hc => ?_, fun e hc => hfalse _ (by simp [hc])⟩,
      fun hn => absurd trivial hn⟩, fun hi => ⟨fun hn => (by cases hn), fun _ => hfalse _ (by simp [hi])⟩,
      fun e hi => hfalse _ (by simp [hi])⟩
    cases ok with
    | true => exact htrue _ ⟨hi, hc⟩
    | false => exact hfalse _ (by simp [hc])
  rw [fileRow, wp_bind, wp_get, wp_service, wp_catching, wp_bind]
  refine hwritten _ _ _ (fun sh _ => ?_) fun sh hn => ?_
  · exact (wp_guarded _).mpr ⟨fun hf => (by cases hf), fun _ => rfl⟩
  · refine (wp_guarded _).mpr ⟨fun _ => ?_, fun hf => absurd rfl hf⟩
    have hreports := h.resolve_left hn
    refine report_wp (fun _ _ _ => rfl) fun hr _ _ _ => ?_
    exact report_wp (fun _ _ _ => rfl) fun hr' => (hreports.elim hr hr').elim

theorem fileImages_completes
    (h : c.ud.createdCardId ≠ [] → ∀ i < c.ud.jiraTask.vLocalFilePaths.length, (env.addImg i).Normal) :
    wp (fileImages env) (fun _ d => d.ud = c.ud) (fun _ _ => False) c := by
  rw [fileImages, wp_bind, wp_get, wp_guarded]
  refine ⟨fun hid => ?_, fun _ => rfl⟩
  rw [wp_service]
  refine wp_mono (wp_forEach (I := fun _ => True) (fun i hi sh _ => ?_) trivial) (fun _ _ _ => rfl)
    fun _ _ => id
  have hn := (List.mem_zipIdx hi).2.1
  refine (wp_call _ _).mpr ⟨fun _ _ => trivial, fun _ he => ?_⟩
  exact (h hid i.2 (by simpa using hn)).not_throws he

theorem notifyStaff_completes (h : StaffSpared cfg env.staff) :
    wp (notifyStaff cfg env) (fun _ d => d.ud = c.ud) (fun _ _ => False) c := by
  rw [notifyStaff, wp_bind, wp_get, wp_inThread, wp_service]
  exact wp_mono (sendMsgToStaff_completes h _) (fun _ _ _ => rfl) fun _ _ => False.elim

theorem thankUser_completes {message : Message} (hthanks : env.thanks.Normal)
    (hsticker : cfg.stickerList ≠ [] → env.sendSticker.Normal) :
    wp (thankUser cfg env message) (fun _ d => d.ud = c.ud) (fun _ _ => False) c := by
  rw [thankUser, wp_bind, wp_service, wp_call]
  refine ⟨fun _ _ => ?_, fun _ he => hthanks.not_throws he⟩
  split
  · exact rfl
  · rename_i sticker hs
    have hne : cfg.stickerList ≠ [] := by
      rintro hnil
      rw [hnil] at hs
      cases hs
    simp only [wp_bind, wp_service, wp_call, wp_pure]
    exact ⟨fun _ _ => trivial, fun _ he => (hsticker hne).not_throws he⟩

theorem fileAttachments_completes {n : Int}
    (hfiles : ∀ i < c.ud.jiraTask.vLocalFilePaths.length, (env.addAttach i).Normal)
    (hadmin : isTekla c.ud.jiraTask → env.teklaAdmin.Normal) :
    Completes (fileAttachments cfg env n) c := by
  unfold Completes fileAttachments
  rw [wp_bind, wp_get, wp_bind, wp_service]
  refine wp_mono (wp_forEach (I := fun _ => True) (fun i hi sh _ => ?_) trivial) (fun _ sh _ => ?_)
    fun _ _ => id
  · have hn := (List.mem_zipIdx hi).2.1
    refine (wp_call _ _).mpr ⟨fun _ _ => trivial, fun _ he => ?_⟩
    exact (hfiles i.2 (by simpa using hn)).not_throws he
  · simp only [wp_guarded, wp_service, wp_bind, wp_call, wp_pure]
    exact ⟨fun ht => ⟨fun _ _ => trivial, fun _ he => (hadmin ht).not_throws he⟩, fun _ => trivial⟩

theorem fileInJira_completes (h : JiraSafe env c.ud.jiraTask) : Completes (fileInJira cfg env head) c := by
  have hcaught (d : Chat) (hr : env.taskThrewReport.Normal) :
      Completes (do
        service (sendTaskToSupport cfg (of "Ошибка создания задачи Jira " ++ env.jiraWhat ++ head)
          c.ud.jiraTask .goDashboard env.taskThrewReport)
        modifySession fun u => {u with lastError := 1}) d := by
    unfold Completes
    rw [wp_bind, wp_service]
    exact report_wp (fun _ _ _ => trivial) fun hn => absurd hr hn
  unfold Completes fileInJira
  rw [wp_bind, wp_get, wp_catching, wp_bind, wp_service, createTask_eq, wp_call]
  refine ⟨fun n hn => ?_, fun e he => ?_⟩
  · rw [JiraSafe, hn] at h
    dsimp only at h
    rw [wp_ite]
    refine ⟨fun hcode => ?_, fun hcode => ?_⟩
    · rw [if_pos hcode] at h
      rw [wp_bind, wp_service]
      exact report_wp (fun _ _ _ => trivial) fun hr _ sh _ => hcaught _ (h.resolve_right hr)
    · rw [if_neg hcode] at h
      rcases h with h | ⟨hfiles, hadmin⟩
      · refine wp_mono (fileAttachments_unmarked env n _) (fun _ _ _ => trivial) fun stop d hs => ?_
        cases stop with
        | throws e => exact hcaught d h
        | _ => cases hs.1
      · exact wp_mono (fileAttachments_completes hfiles hadmin) (fun _ _ _ => trivial)
          fun _ _ => False.elim
  · rw [JiraSafe, he] at h
    exact hcaught _ (h.resolve_right id)

theorem SameFiles.jira {c d : Chat} (h : SameFiles c d) (hj : JiraSafe env c.ud.jiraTask) :
    JiraSafe env d.ud.jiraTask := by
  obtain ⟨htekla, hfiles⟩ := h
  unfold JiraSafe at hj ⊢
  rw [htekla, hfiles]
  exact hj

theorem fileOnBoard_completes (hid : c.ud.createdCardId = []) (hcard : CardSafe env)
    (hrow : RowSafe env) (himages : ImagesSafe env c.ud.jiraTask.vLocalFilePaths.length)
    (hstaff : StaffSpared cfg env.staff) :
    wp (fileOnBoard cfg env head) (fun _ d => SameFiles c d) (fun _ _ => False) c := by
  rw [fileOnBoard, wp_bind]
  refine wp_mono (fileCard_completes hcard) (fun _ d₁ h₁ => ?_) fun _ _ => id
  obtain ⟨hsame, hcreated⟩ := h₁
  rw [wp_bind]
  refine wp_mono (fileRow_completes hrow) (fun _ d₂ h₂ => ?_) fun _ _ => id
  rw [wp_bind]
  have hadd : d₂.ud.createdCardId ≠ [] →
      ∀ i < d₂.ud.jiraTask.vLocalFilePaths.length, (env.addImg i).Normal := by
    intro hne
    rw [h₂] at hne ⊢
    rw [hsame.2]
    rcases hcreated with hc | hc
    · exact absurd (hc.trans hid) hne
    · exact himages _ hc hne
  refine wp_mono (fileImages_completes hadd) (fun _ d₃ h₃ => ?_) fun _ _ => id
  refine wp_mono (notifyStaff_completes hstaff) (fun _ d₄ h₄ => ?_) fun _ _ => id
  have hud : d₄.ud = d₁.ud := h₄.trans (h₃.trans h₂)
  rw [SameFiles, hud]
  exact hsame

theorem submitTask_completes {message : Message} (h : FilingSafe cfg env c.ud.jiraTask) :
    Completes (submitTask cfg env message) c := by
  have hend (head : Text) (d : Chat) (hd : SameFiles c d) :
      wp (do thankUser cfg env message; fileInJira cfg env head) (fun _ _ => True)
        (fun _ _ => False) d := by
    rw [wp_bind]
    refine wp_mono (thankUser_completes h.thanks h.sticker) (fun _ d' hd' => ?_) fun _ _ => id
    exact fileInJira_completes (hd' ▸ hd.jira h.jira)
  unfold Completes submitTask
  rw [wp_bind, wp_service, wp_call]
  refine ⟨fun _ _ => ?_, fun _ he => h.accepted.not_throws he⟩
  rw [wp_bind, wp_modifyTask, wp_bind, wp_get, wp_bind, wp_modifySession, wp_bind, wp_guarded]
  refine ⟨fun htekla => ?_, fun _ => hend _ _ ⟨rfl, rfl⟩⟩
  exact wp_mono (fileOnBoard_completes rfl (h.card htekla) (h.row htekla) (h.images htekla)
    (h.staff htekla)) (fun _ d hd => hend _ d hd) fun _ _ => id

theorem createNewIssue_completes {message : Message} (h : FilingSafe cfg env c.ud.jiraTask) :
    Completes (createNewIssue cfg env message) c := by
  unfold Completes createNewIssue
  rw [wp_bind, wp_get, wp_bind, wp_service, wp_log, wp_bind]
  exact wp_mono (submitTask_completes h) (fun _ _ _ => trivial) fun _ _ => id

end

end Chanserv
