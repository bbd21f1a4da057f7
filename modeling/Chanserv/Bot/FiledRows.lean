import Chanserv.Bot.Assignee
import Chanserv.Bot.Dialogs

/-! Where the rows of the table of issues come from.

A row is written when a task is filed; its texts are those of the task, escaped, and
nobody changes them afterwards. So every row there is has been filed in a dialog, in
this life of the bot or an earlier one. -/
namespace Chanserv
open Text Program

/-- The texts of a row that only the bot writes. -/
def IssueRow.texts (r : IssueRow) : List Text :=
  [r.consumerName, r.consumerLink, r.section_, r.category, r.theme, r.description, r.createdTime, r.photos, r.project]

/-- A task as it is written at a time. -/
def escapedTask (created : Text) (t : NewTask) : NewTask :=
  { t with
    creationDate := created
    category := escapeJsonEntireText t.category
    consumerName := escapeJsonEntireText t.consumerName
    description := escapeJsonEntireText t.description
    project := escapeJsonEntireText t.project
    section_ := escapeJsonEntireText (t.section_.filter (· ≠ ' '))
    subj := escapeJsonEntireText t.subj }

/-- The row has the texts of the task. -/
def RowOf (task : NewTask) (r : IssueRow) : Prop :=
  ∃ created, r.texts = (rowOfTask (escapedTask created task)).texts

/-! ### One update -/

/-- Rows may go; one that is new is that of a task that was filed meanwhile. -/
def Adds (s s' : Shared) : Prop :=
  ∀ r ∈ s'.db.issues, r ∈ s.db.issues ∨ ∃ task, s'.notes = s.notes ++ [.createNewIssue task] ∧ RowOf task r

section
variable {cfg : Config} {env : UpdateEnv} {x : Update} {m : Message} {c : Chat} {w : World} {s s' s'' : Shared}

theorem Adds.of_fewer (h : FewerRows s s') : Adds s s' := fun _ hr => .inl (h hr)

theorem Adds.after (h : FewerRows s s') (hnotes : s'.notes = s.notes) (h' : Adds s' s'') : Adds s s'' := by
  intro r hr
  rcases h' r hr with hr | ⟨task, hfiled, hrow⟩
  · exact .inl (h hr)
  · exact .inr ⟨task, hnotes ▸ hfiled, hrow⟩

/-- What filing a task leaves in the table: a row of this task, if a new one. -/
theorem FiledAs.rows {cenv : CreateIssueEnv} {d : Chat}
    (h : FiledAs (withCard cenv (prepared cenv c.ud)).jiraTask c d) :
    ∀ r ∈ d.sh.db.issues, r ∈ c.sh.db.issues ∨ RowOf c.ud.jiraTask r := by
  intro r hr
  rcases h.table with hsame | hnew
  · have hissues : d.sh.db.issues = c.sh.db.issues := congrArg Prod.fst hsame
    exact .inl (hissues ▸ hr)
  · have hissues : d.sh.db.issues = _ := congrArg Prod.fst hnew
    rw [hissues] at hr
    rcases List.mem_append.mp hr with hr | hr
    · exact .inl hr
    · rw [List.mem_singleton.mp hr]
      exact .inr ⟨cenv.creationDate, rfl⟩

theorem FiledAs.adds {cenv : CreateIssueEnv} {d : Chat}
    (h : FiledAs (withCard cenv (prepared cenv c.ud)).jiraTask c d)
    (hnotes : d.sh.notes = c.sh.notes ++ [.createNewIssue c.ud.jiraTask]) : Adds c.sh d.sh :=
  fun r hr => (h.rows r hr).imp_right fun hrow => ⟨c.ud.jiraTask, hnotes, hrow⟩

theorem createNewIssue_adds (cenv : CreateIssueEnv) :
    wp (inThread (createNewIssue cfg cenv m)) (fun _ d => Adds c.sh d.sh) (fun _ d => Adds c.sh d.sh) c := by
  have hnotes : wp (createNewIssue cfg cenv m)
      (fun _ d => d.sh.notes = c.sh.notes ++ [.createNewIssue c.ud.jiraTask])
      (fun _ d => d.sh.notes = c.sh.notes ++ [.createNewIssue c.ud.jiraTask]) c := by
    simp only [createNewIssue, wp_bind, wp_get, wp_service, wp_log]
    refine wp_mono (submitTask_marked cenv m _) (fun _ d hd => ?_) fun _ d hd => ?_
    · simp only [Chat.mark, Prod.mk.injEq, Shared.notes_log] at hd
      exact hd.1
    · simp only [Chat.mark, Prod.mk.injEq, Shared.notes_log] at hd
      exact hd.2.1
  rw [wp_inThread]
  refine wp_mono (wp_and (createNewIssue_filedAs cfg cenv m c) hnotes) (fun _ d h => h.1.adds h.2) fun stop d h => ?_
  cases stop <;> exact h.1.adds h.2

/-- A message adds a row only by filing its user's task. -/
theorem smallTalk_adds :
    wp (smallTalk cfg env.smallTalk m) (fun _ d => Adds c.sh d.sh) (fun _ d => Adds c.sh d.sh) c :=
  smallTalk_submits (fun _ _ => createNewIssue_adds _) fun _ h => .of_fewer h.2

theorem handleUpdate_adds_message :
    wp (handleUpdate cfg env (.message m)) (fun _ w' => Adds w.sh w'.sh) (fun _ w' => Adds w.sh w'.sh) w := by
  refine wp_message (fun w' h => .of_fewer h) fun w₁ c hrows hnotes hsh _ => ?_
  have hadds {d : Chat} (h : Adds c.sh d.sh) (w' : World) (hat : w'.At m.from_.id d) : Adds w.sh w'.sh := by
    obtain ⟨-, -, -, hsh'⟩ := hat
    rw [hsh']
    rw [hsh] at h
    exact .after hrows hnotes h
  exact wp_mono smallTalk_adds (fun _ _ => hadds) fun _ _ => hadds

/-- A new row is that of a task the update files. -/
theorem handleUpdate_adds (cfg : Config) (env : UpdateEnv) (x : Update) (w : World) :
    Adds w.sh (final (handleUpdate cfg env x) w).sh := by
  cases x with
  | message m => exact of_wp (P := fun _ (w' : World) => Adds w.sh w'.sh) handleUpdate_adds_message
  | command name m =>
    have hstays : Stays (KeptLists FewerRows) (handleUpdate cfg env (.command name m)) := handleUpdate_stays_command
    exact .of_fewer (of_wp (P := fun _ => KeptLists FewerRows w) (hstays.within w)).2
  | callback q =>
    by_cases hb : buttonOf q.data = some .myTasks
    · exact .of_fewer (of_wp (P := fun _ => Relisted q.from_.id q.messageId
        (myRows env.callback.myIssues w.sh.db q.from_.id) w) (myTasks_relisted hb)).2
    · have hstays : Stays (KeptLists FewerRows) (onCallbackQuery cfg env.callback q env.now) := onCallbackQuery_stays hb
      exact .of_fewer (of_wp (P := fun _ => KeptLists FewerRows w) (hstays.within w)).2

end

/-! ### All lives -/

/-- A state of the bot in one of its lives, with the updates of this life, over a table that started
with these rows. Beside it the checker works on the table, statement by statement, and other programs
on other tables. -/
inductive Serves (cfg : Config) (rows₀ : List IssueRow) : List Handled → World → Prop
  | start {sh : Shared} (htrace : sh.trace = []) (hrows : sh.db.issues = rows₀) : Serves cfg rows₀ [] {sh}
  | update {hist w} (hs : Serves cfg rows₀ hist w) (env : UpdateEnv) (x : Update)
      (h : Alive (failure (handleUpdate cfg env x) w)) :
      Serves cfg rows₀ (hist ++ [⟨env, x, w⟩]) (final (handleUpdate cfg env x) w)
  /-- The process ends in an update, and is started again. -/
  | ended {hist w} (hs : Serves cfg rows₀ hist w) (env : UpdateEnv) (x : Update) {sh : Shared}
      (htrace : sh.trace = []) (hrows : sh.db.issues = (final (handleUpdate cfg env x) w).sh.db.issues) :
      Serves cfg rows₀ [] {sh}
  | restarted {hist w} (hs : Serves cfg rows₀ hist w) {sh : Shared} (htrace : sh.trace = [])
      (hrows : sh.db.issues = w.sh.db.issues) : Serves cfg rows₀ [] {sh}
  | task {hist w} (hs : Serves cfg rows₀ hist w) (env : TaskEnv) (task : Task)
      (h : failure (serviceBot (runTask cfg env task)) w = none) :
      Serves cfg rows₀ hist (final (serviceBot (runTask cfg env task)) w)
  | queued {hist w} (hs : Serves cfg rows₀ hist w) (tasks : List Task) :
      Serves cfg rows₀ hist {w with mMainTasks := tasks}
  | checked {hist w} (hs : Serves cfg rows₀ hist w) (st : CheckerStatement) :
      Serves cfg rows₀ hist {w with sh := {w.sh with db := st.run w.sh.db}}
  | tables {hist w} (hs : Serves cfg rows₀ hist w) (db : Db) (hrows : db.issues = w.sh.db.issues) :
      Serves cfg rows₀ hist {w with sh := {w.sh with db}}

/-- The row has been filed after this history of one life: its texts are those of the task. -/
def FiledAfter (cfg : Config) (hist : List Handled) (h : Handled) (r : IssueRow) : Prop :=
  Run cfg hist h.before ∧ ∃ task, .createNewIssue task ∈ h.effects cfg ∧ RowOf task r

section
variable {cfg : Config} {rows₀ : List IssueRow} {hist : List Handled} {w : World} {r : IssueRow}

/-- Each life is a run of its own. -/
theorem Serves.run (hs : Serves cfg rows₀ hist w) : Run cfg hist w := by
  induction hs with
  | start htrace | ended _ _ _ htrace | restarted _ htrace => exact .start htrace
  | update _ env x h ih => exact ih.update env x h
  | task _ env task h ih => exact ih.task env task h
  | queued _ tasks ih => exact ih.queued tasks
  | checked _ st ih => exact ih.tables _
  | tables _ db _ ih => exact ih.tables db

theorem Serves.played {updates : List (UpdateEnv × Update)} (hs : Serves cfg rows₀ hist w)
    (h : survives cfg updates w) :
    Serves cfg rows₀ (hist ++ (played cfg updates w).1) (played cfg updates w).2 :=
  played_induct (P := Serves cfg rows₀) (fun _ _ env x hs halive => hs.update env x halive) hs h

/-- A statement of the checker leaves the texts of a row alone. -/
theorem CheckerStatement.texts_run {db : Db} {st : CheckerStatement} (hr : r ∈ (st.run db).issues) :
    ∃ s ∈ db.issues, r.texts = s.texts := by
  have hupdate (idCard : Text) (f : IssueRow → IssueRow) (hf : ∀ s, (f s).texts = s.texts)
      (hr : r ∈ (db.updateIssues idCard f).issues) : ∃ s ∈ db.issues, r.texts = s.texts := by
    obtain ⟨s, hs, rfl⟩ := List.mem_map.mp hr
    refine ⟨s, hs, ?_⟩
    split
    · exact hf s
    · rfl
  cases st with
  | assign idCard c => exact hupdate idCard (IssueRow.assigned c) (fun _ => rfl) hr
  | clear idCard => exact hupdate idCard IssueRow.cleared (fun _ => rfl) hr
  | list idCard listId => exact hupdate idCard (IssueRow.listed listId) (fun _ => rfl) hr
  | delete idCard => exact ⟨r, (List.mem_filter.mp hr).1, rfl⟩

/-- The row was there, or has been filed. -/
def Sourced (cfg : Config) (rows₀ : List IssueRow) (r : IssueRow) : Prop :=
  (∃ s ∈ rows₀, r.texts = s.texts) ∨ ∃ hist h, FiledAfter cfg hist h r

theorem Sourced.same {s : IssueRow} (h : Sourced cfg rows₀ s) (hr : r.texts = s.texts) : Sourced cfg rows₀ r := by
  rcases h with ⟨s₀, hs₀, htexts⟩ | ⟨hist, h, hrun, task, hfiled, created, htexts⟩
  · exact .inl ⟨s₀, hs₀, hr.trans htexts⟩
  · exact .inr ⟨hist, h, hrun, task, hfiled, created, hr.trans htexts⟩

theorem Serves.update_sourced (hs : Serves cfg rows₀ hist w) (ih : ∀ r ∈ w.sh.db.issues, Sourced cfg rows₀ r)
    (env : UpdateEnv) (x : Update) :
    ∀ r ∈ (final (handleUpdate cfg env x) w).sh.db.issues, Sourced cfg rows₀ r := by
  intro r hr
  rcases handleUpdate_adds cfg env x w r hr with hr | ⟨task, hnotes, hrow⟩
  · exact ih r hr
  · refine .inr ⟨hist, ⟨env, x, w⟩, hs.run, task, ?_, hrow⟩
    rw [Handled.effects, hnotes, List.drop_left]
    exact List.mem_singleton_self _

/-- Every row has its source. -/
theorem Serves.sourced (hs : Serves cfg rows₀ hist w) : ∀ r ∈ w.sh.db.issues, Sourced cfg rows₀ r := by
  induction hs with
  | start _ hrows => exact fun r hr => .inl ⟨r, hrows ▸ hr, rfl⟩
  | update hs env x _ ih => exact hs.update_sourced ih env x
  | ended hs env x _ hrows ih =>
    intro r hr
    exact hs.update_sourced ih env x r (hrows ▸ hr)
  | restarted _ _ hrows ih | tables _ _ hrows ih => exact fun r hr => ih r (hrows ▸ hr)
  | task _ env task _ ih =>
    intro r hr
    have hstays : Stays (KeptLists FewerRows) (serviceBot (runTask cfg env task)) := by
      have htask : Stays FewerRows (runTask cfg env task) := runTask_stays env task
      infer_instance
    exact ih r ((of_wp (P := fun _ => KeptLists FewerRows _) (hstays.within _)).2 hr)
  | queued _ _ ih => exact ih
  | checked _ st ih =>
    intro r hr
    obtain ⟨s, hs, htexts⟩ := CheckerStatement.texts_run hr
    exact (ih s hs).same htexts

end

end Chanserv
