import Chanserv.Bot.Run
import Chanserv.Bot.Stays
import Chanserv.Checker.Board

/-! Who closes an issue.

A click on the button under an issue removes the rows of its card, whoever has
them by then: the issue comes from the list shown last, and the list checker may
have changed the rows since. `closed_by_assignee` says which orders of the two
programs' steps leave every issue to be closed by the contractor who has it. -/
namespace Chanserv
open Text Program

/-! ### The steps of both programs -/

/-- What the checker does to the table of issues, statement by statement. -/
inductive CheckerStatement where
  | assign (idCard : Text) (c : Contractor)
  | clear (idCard : Text)
  | list (idCard listId : Text)
  | delete (idCard : Text)

namespace CheckerStatement

def run (db : Db) : CheckerStatement → Db
  | assign idCard c => db.updateIssues idCard (IssueRow.assigned c)
  | clear idCard => db.updateIssues idCard IssueRow.cleared
  | list idCard listId => db.updateIssues idCard (IssueRow.listed listId)
  | delete idCard => db.deleteIssue idCard

/-- The card whose rows get a contractor, and the id they get. -/
def hands : CheckerStatement → Option (Text × Text)
  | assign idCard c => some (idCard, itoa c.id)
  | clear idCard => some (idCard, [])
  | _ => none

end CheckerStatement

/-- The tables before and after are connected by statements. -/
def ByStatements (s s' : Shared) : Prop :=
  ∃ sts : List CheckerStatement, s'.db = sts.foldl CheckerStatement.run s.db

instance : Std.Refl ByStatements := ⟨fun _ => ⟨[], rfl⟩⟩

instance : IsTrans Shared ByStatements where
  trans s s' s'' := by
    rintro ⟨sts, h⟩ ⟨sts', h'⟩
    exact ⟨sts ++ sts', by rw [List.foldl_append, ← h, h']⟩

theorem byStatements_admits (id : Text) : Admits (fun _ => True) ByStatements id where
  log _ _ _ := ⟨[], rfl⟩
  update s f hf := by
    cases hf with
    | @assigned c _ => exact ⟨[.assign id c], rfl⟩
    | cleared => exact ⟨[.clear id], rfl⟩
    | listed listId => exact ⟨[.list id listId], rfl⟩
  delete _ := ⟨[.delete id], rfl⟩

/-- A pass, completed or not, is a list of statements. -/
theorem checkTheList_statements {cfg : Config} {env : PassEnv} :
    Within (OnShared ByStatements) (checkTheList cfg env) :=
  Admits.checkTheList byStatements_admits fun _ _ _ _ _ _ => trivial

inductive Event where
  | update (env : UpdateEnv) (x : Update)
  | job (env : TaskEnv) (task : Task)
  | statement (st : CheckerStatement)

/-- The state after a step of either program. -/
def Event.after (cfg : Config) (w : World) : Event → World
  | .update env x => final (handleUpdate cfg env x) w
  | .job env task => final (serviceBot (runTask cfg env task)) w
  | .statement st => {w with sh := {w.sh with db := st.run w.sh.db}}

/-- The state after these steps, one after another. -/
def World.after (cfg : Config) (w : World) (es : List Event) : World := es.foldl (Event.after cfg) w

/-! ### The condition -/

/-- The message of this number is the last menu of the user. -/
def World.Menu (w : World) (user m : Int) : Prop := ∃ u, w.session user = some u ∧ u.clickedMsgId = m

/-- The message writes a row: its user submits a task, which is not one of Tekla's, and the calls up to the row
return. -/
def Writes (cfg : Config) (w : World) (env : UpdateEnv) (m : Message) : Prop :=
  env.smallTalk.createIssue.Writes ∧ ∃ t task, facing cfg env w m = some t ∧ submitted m t = some task ∧
    isTekla task = false

/-- What is listed stays with the contractor who has it on his list. A row is written of no card that is
listed; a list takes no card of which another has rows too; the checker hands no listed card to
anybody else, and takes it from nobody. -/
def Event.Leaves (cfg : Config) (w : World) : Event → Prop
  | .update env x =>
    (∀ m, x = .message m → Writes cfg w env m → ∀ user, ¬w.Lists user (createdCard env.smallTalk.createIssue)) ∧
    ∀ q, x = .callback q → buttonOf q.data = some .myTasks → w.Menu q.from_.id q.messageId →
      ∀ r ∈ myRows env.callback.myIssues w.sh.db q.from_.id, ∀ s ∈ w.sh.db.issues, s.idCard = r.idCard →
        s.contractorId = itoa q.from_.id
  | .job .. => True
  | .statement st => ∀ k id, st.hands = some (k, id) → ∀ user, w.Lists user k →
      ∀ r ∈ w.sh.db.issues, r.idCard = k → id = itoa user

def AllLeave (cfg : Config) : World → List Event → Prop
  | _, [] => True
  | w, e :: es => e.Leaves cfg w ∧ AllLeave cfg (e.after cfg w) es

/-- A click on the button that closes an issue removes rows of the one who clicks only. -/
def ClosesOwn (cfg : Config) (w : World) : Prop :=
  ∀ env q, buttonOf q.data = some .taskClosing →
    ∀ r ∈ w.sh.db.issues, r ∉ (final (handleUpdate cfg env (.callback q)) w).sh.db.issues →
      r.contractorId = itoa q.from_.id

/-! ### The invariant -/

/-- The rows of a listed card are those of the contractor who has it on his list. -/
def Held (w : World) : Prop :=
  ∀ user k, w.Lists user k → ∀ r ∈ w.sh.db.issues, r.idCard = k → r.contractorId = itoa user

section
variable {cfg : Config} {env : CallbackEnv} {q : CallbackQuery} {now me : Int} {c c' : Chat} {w w₁ w' : World}

/-- All rows are still there but those of a card. -/
def Spares (k : Text) (s s' : Shared) : Prop := ∀ r ∈ s.db.issues, r.idCard ≠ k → r ∈ s'.db.issues

instance (k : Text) : Std.Refl (Spares k) := ⟨fun _ _ hr _ => hr⟩

instance (k : Text) : IsTrans Shared (Spares k) := ⟨fun _ _ _ h h' r hr hk => h' r (h r hr hk) hk⟩

theorem Spares.of_table {k : Text} {s s' : Shared} (h : s'.table = s.table) : Spares k s s' := by
  have hissues : s'.db.issues = s.db.issues := congrArg Prod.fst h
  intro r hr _
  rw [hissues]
  exact hr

instance (k : Text) : OfTable (Spares k) := ⟨Spares.of_table⟩

instance (k : Text) (r : Answer Bool) : Stays (Spares k) (deleteIssueFromDb k r) := by
  have hcall : Stays (Spares k) (call (.deleteIssue k) r) := inferInstance
  have hwrite : Stays (Spares k) (modify fun s : Shared => {s with db := s.db.deleteIssue k} : ServiceM Unit) :=
    ⟨.writes fun _ r hr hk => List.mem_filter.mpr ⟨hr, decide_eq_true hk⟩⟩
  unfold deleteIssueFromDb sql
  infer_instance

/-- An end removes the rows of the issue's card only. -/
theorem onTaskClosing_spares (issue : PgdbIssue) :
    Stays (SameLists (Spares issue.idCard)) (onTaskClosing cfg env q issue) := by
  have hclicked : Stays (SameLists (Spares issue.idCard)) (modifySession fun u => {u with clickedMsgId := 0}) :=
    stays_modifySession fun _ => rfl
  have hbeside : Stays (Spares issue.idCard) (besideThread env.ahead
      (noticesToStaff cfg (closingNotice issue) .goDashboard env.staff)
      [ archivingCard issue.idCard env.archive,
        do let _ ← deleteIssueFromDb issue.idCard env.deleteIssue ]) :=
    .besideNotice (List.forall_mem_cons.mpr ⟨inferInstance, List.forall_mem_singleton.mpr inferInstance⟩)
  have hrest : Stays (SameLists (Spares issue.idCard)) (do
      service (call (.answerCallbackQuery q.id
        (of "Вы завершили задачу\nМожно приступать к выполнению следующей")) env.alert)
      service (besideThread env.ahead (noticesToStaff cfg (closingNotice issue) .goDashboard env.staff)
        [ archivingCard issue.idCard env.archive,
          do let _ ← deleteIssueFromDb issue.idCard env.deleteIssue ])) := inferInstance
  unfold onTaskClosing
  infer_instance

/-- The issue of a click is one of the session's list. -/
theorem clickedIssue_listed :
    wp (clickedIssue q) (fun issue c' => c' = c ∧ ∀ p ∈ issue, p ∈ c.ud.pgdbIssues) (fun _ c' => c' = c) c := by
  rw [clickedIssue, wp_bind, wp_get]
  cases hsel : getSelectedIssueId q.messageId c.ud.pgdbIssues c.ud.recentMsgIds c.ud.recentMsgs with
  | none => exact rfl
  | some issue =>
    refine ⟨rfl, ?_⟩
    intro p hp
    unfold getSelectedIssueId at hsel
    split at hsel
    · obtain rfl := Option.some.inj hsel
      cases hp
    · split at hsel
      · cases hsel
      · obtain rfl := Option.some.inj hsel
        exact List.mem_of_find?_eq_some hp

/-- A click on the closing button removes rows of listed cards only. -/
theorem closing_spares (hb : buttonOf q.data = some .taskClosing) {r : IssueRow} (hr : r ∈ w.sh.db.issues)
    (hunlisted : ¬w.Lists q.from_.id r.idCard) :
    wp (onCallbackQuery cfg env q now) (fun _ w' => r ∈ w'.sh.db.issues) (fun _ w' => r ∈ w'.sh.db.issues) w := by
  have hdata : q.data = Button.taskClosing.data := data_of_buttonOf hb
  have hkey : ¬(isApprove q.data ∨ isReject q.data) := by
    rw [hdata]
    decide
  refine wp_ownClick hkey (fun _ => hr) ?_
  rw [ownCallback]
  refine wp_inSession _ _ (fun _ => hr) fun u hu w₂ hat₂ _ => ?_
  have hsame {w₃ : World} (hat₃ : w₃.At q.from_.id ((⟨u, w.sh⟩ : Chat).touch now)) : r ∈ w₃.sh.db.issues := by
    obtain ⟨-, -, -, hsh⟩ := hat₃
    rw [hsh]
    exact hr
  rw [wp_bind]
  refine wp_onSession hat₂ (wp_mono clickedIssue_listed ?_ ?_)
  · rintro issue c₃ ⟨rfl, hissue⟩ w₃ hat₃ _
    rw [hb]
    show wp (onSession (issue.elim (pure ()) (onTaskClosing cfg env q))) _ _ w₃
    cases issue with
    | none => exact wp_onSession hat₃ fun w₄ hat₄ _ => hsame hat₄
    | some issue =>
      have hcard : r.idCard ≠ issue.idCard := by
        intro hk
        exact hunlisted ⟨u, hu, issue, hissue issue rfl, hk.symm⟩
      have hspares := (@onTaskClosing_spares cfg env q issue).within
      refine wp_onSession hat₃ (wp_mono (hspares _) ?_ ?_)
      all_goals
        intro _ c₄ hc₄ w₄ hat₄ _
        obtain ⟨-, -, -, hsh⟩ := hat₄
        rw [hsh]
        exact hc₄.2 r hr hcard
  · rintro _ c₃ rfl w₃ hat₃ _
    exact hsame hat₃

/-- Where listed cards are held by their contractors, an issue is closed by the one who has it. -/
theorem Held.closesOwn (h : Held w) : ClosesOwn cfg w := by
  intro env q hb r hr hgone
  by_contra hother
  refine hgone ?_
  have hunlisted : ¬w.Lists q.from_.id r.idCard := fun hlisted => hother (h _ _ hlisted r hr rfl)
  have hstays : wp (handleUpdate cfg env (.callback q)) (fun _ w' => r ∈ w'.sh.db.issues)
      (fun _ w' => r ∈ w'.sh.db.issues) w := closing_spares hb hr hunlisted
  exact of_wp (P := fun _ (w' : World) => r ∈ w'.sh.db.issues) hstays

/-! ### The list -/

/-- Every card on the list of the session was there before, or is of one of these rows. -/
def ListOf (rows : List IssueRow) (c c' : Chat) : Prop :=
  (∀ p ∈ c'.ud.pgdbIssues, p ∈ c.ud.pgdbIssues ∨ ∃ r ∈ rows, r.idCard = p.idCard) ∧ c'.sh.table = c.sh.table

instance (rows : List IssueRow) : Std.Refl (ListOf rows) := ⟨fun _ => ⟨fun _ hp => .inl hp, rfl⟩⟩

instance (rows : List IssueRow) : IsTrans Chat (ListOf rows) where
  trans c c' c'' h h' := by
    refine ⟨fun p hp => ?_, h'.2.trans h.2⟩
    rcases h'.1 p hp with hp | hrow
    · exact h.1 p hp
    · exact .inr hrow

instance {α : Type} (rows : List IssueRow) {m : ServiceM α} [hm : Frames Shared.table m] :
    Stays (ListOf rows) (service m) :=
  ⟨Within.zoom (R := fun s s' => s'.table = s.table) (Stays.of_frames hm fun _ _ h => h).within
    fun _ _ hs => ⟨fun _ hp => .inl hp, hs⟩⟩

theorem remember_listOf {rows : List IssueRow} {row : IssueRow} (hrow : row ∈ rows) (i : Nat) (sent : Sent) :
    Stays (ListOf rows) (modifySession (rememberIssue (issueOfRow i row) sent)) := by
  refine ⟨.writes fun c => ⟨fun p hp => ?_, rfl⟩⟩
  rcases List.mem_append.mp hp with hp | hp
  · exact .inl hp
  · obtain rfl := List.mem_singleton.mp hp
    exact .inr ⟨row, hrow, rfl⟩

theorem showRows_listOf (ienv : MyIssuesEnv) (receiver : Int) (rows : List IssueRow) :
    Stays (ListOf rows) (showRows cfg ienv receiver rows) := by
  have hforget : Stays (ListOf rows) (modifySession forgetIssues) :=
    ⟨.writes fun _ => ⟨fun _ hp => (by cases hp), rfl⟩⟩
  unfold showRows
  refine ⟨hforget.within.bind fun _ => Within.bind (.forEach fun x hx => ?_) fun _ => Stays.within⟩
  obtain ⟨row, i⟩ := x
  have hrow : row ∈ rows := (List.mem_zipIdx hx).2.2 ▸ List.getElem_mem _
  have hremember := remember_listOf hrow (i + 1)
  exact Stays.within

theorem showMyIssues_listOf (ienv : MyIssuesEnv) (receiver : Int) :
    wp (showMyIssues cfg ienv receiver) (fun _ => ListOf (myRows ienv c.sh.db receiver) c)
      (fun _ => ListOf (myRows ienv c.sh.db receiver) c) c := by
  have hlog : ListOf (myRows ienv c.sh.db receiver) c {c with sh := c.sh.log .selectRows} :=
    ⟨fun _ hp => .inl hp, rfl⟩
  have hrows := (@showRows_listOf cfg ienv receiver (myRows ienv c.sh.db receiver)).within
  rw [showMyIssues, wp_bind, wp_service, wp_select]
  refine ⟨fun hr => ?_, fun hr => ?_, fun _ _ => hlog⟩
  · have heq : myRows ienv c.sh.db receiver =
        (c.sh.log .selectRows).db.issues.filter fun row => row.contractorId = itoa receiver := if_pos hr
    rw [← heq]
    exact hrows.from_ hlog
  · have heq : myRows ienv c.sh.db receiver = [] := by
      rw [myRows, hr, if_neg (by decide)]
    rw [heq] at hrows hlog ⊢
    exact hrows.from_ hlog

/-- Nothing is new on any list, but these rows on that of the user who clicked in his last menu. -/
def Relisted (me m : Int) (rows : List IssueRow) (w w' : World) : Prop :=
  (∀ user k, w'.Lists user k → w.Lists user k ∨ user = me ∧ w.Menu me m ∧ ∃ r ∈ rows, r.idCard = k) ∧
    FewerRows w.sh w'.sh

/-- A session that is the same but for its list. -/
theorem Relisted.of_at {u : UserDispatcher} {m : Int} {rows : List IssueRow} (hu : w.session me = some u)
    (hat : w'.At me c) (ho : OthersKept me w w') (hsh : c.sh.table = w.sh.table)
    (hlist : ∀ p ∈ c.ud.pgdbIssues, p ∈ u.pgdbIssues ∨ u.clickedMsgId = m ∧ ∃ r ∈ rows, r.idCard = p.idCard) :
    Relisted me m rows w w' := by
  constructor
  · rintro user k ⟨v, hv, p, hp, rfl⟩
    by_cases hme : user = me
    · subst hme
      rw [hat.session, Option.some.injEq] at hv
      subst hv
      rcases hlist p hp with hp | ⟨hclicked, hrow⟩
      · exact .inl ⟨u, hu, p, hp, rfl⟩
      · exact .inr ⟨rfl, ⟨u, hu, hclicked⟩, hrow⟩
    · rw [ho.session hme] at hv
      exact .inl ⟨v, hv, p, hp, rfl⟩
  · obtain ⟨-, -, -, hsh'⟩ := hat
    exact FewerRows.of_table (hsh' ▸ hsh)

theorem spendMenu_issues (f : NewTask → NewTask) :
    wp (spendMenu q f) (fun spent c' => c'.ud.pgdbIssues = c.ud.pgdbIssues ∧ c'.sh = c.sh ∧
      (spent = true → c.ud.clickedMsgId = q.messageId)) (fun _ _ => False) c := by
  rw [spendMenu, wp_bind, wp_get, wp_ite]
  constructor
  · intro hclicked
    exact ⟨rfl, rfl, fun _ => hclicked⟩
  · intro _
    exact ⟨rfl, rfl, fun hn => by cases hn⟩

/-- A click on `my_tasks`. -/
theorem myTasks_relisted (hb : buttonOf q.data = some .myTasks) :
    wp (onCallbackQuery cfg env q now)
      (fun _ => Relisted q.from_.id q.messageId (myRows env.myIssues w.sh.db q.from_.id) w)
      (fun _ => Relisted q.from_.id q.messageId (myRows env.myIssues w.sh.db q.from_.id) w) w := by
  have hdata : q.data = Button.myTasks.data := data_of_buttonOf hb
  have hkey : ¬(isApprove q.data ∨ isReject q.data) := by
    rw [hdata]
    decide
  have hself : Relisted q.from_.id q.messageId (myRows env.myIssues w.sh.db q.from_.id) w w :=
    ⟨fun _ _ h => .inl h, fun _ hr => hr⟩
  refine wp_ownClick hkey (fun _ => hself) ?_
  rw [ownCallback]
  refine wp_inSession _ _ (fun _ => hself) fun u hu w₂ hat₂ ho₂ => ?_
  rw [wp_bind]
  refine wp_onSession hat₂ (wp_mono clickedIssue_listed ?_ ?_)
  · rintro issue c₃ ⟨rfl, -⟩ w₃ hat₃ ho₃
    rw [hb]
    show wp (onMyTasks cfg env q now) _ _ w₃
    rw [onMyTasks, wp_bind]
    refine wp_onSession hat₃ (wp_mono (spendMenu_issues id) ?_ fun _ _ hf => hf.elim)
    rintro spent c₄ ⟨hissues₄, hsh₄, hclicked⟩ w₄ hat₄ ho₄
    rw [wp_guarded]
    constructor
    · intro hspent
      rw [wp_inThread, getMyIssues]
      refine wp_ownSession hat₄ now fun w₅ hat₅ ho₅ => ?_
      have hdone {c₆ : Chat} {w₆ : World} (hlist : ListOf (myRows env.myIssues w.sh.db q.from_.id) (c₄.touch now) c₆)
          (hat₆ : w₆.At q.from_.id c₆) (ho₆ : OthersKept q.from_.id w₅ w₆) :
          Relisted q.from_.id q.messageId (myRows env.myIssues w.sh.db q.from_.id) w w₆ := by
        refine .of_at hu hat₆ (ho₂.trans (ho₃.trans (ho₄.trans (ho₅.trans ho₆)))) ?_ fun p hp => ?_
        · exact hlist.2.trans (congrArg Shared.table hsh₄)
        · rcases hlist.1 p hp with hp | hrow
          · exact .inl (hissues₄ ▸ hp)
          · exact .inr ⟨hclicked hspent, hrow⟩
      have hdb : (c₄.touch now).sh.db = w.sh.db := congrArg Shared.db hsh₄
      have hshow := @showMyIssues_listOf cfg (c₄.touch now) env.myIssues q.from_.id
      rw [hdb] at hshow
      refine wp_onSession hat₅ (wp_mono hshow ?_ ?_)
      · intro _ c₆ hlist w₆ hat₆ ho₆
        exact hdone hlist hat₆ ho₆
      · intro stop c₆ hlist w₆ hat₆ ho₆
        cases stop <;> exact hdone hlist hat₆ ho₆
    · intro _
      refine .of_at hu hat₄ (ho₂.trans (ho₃.trans ho₄)) (congrArg Shared.table hsh₄) fun p hp => ?_
      exact .inl (hissues₄ ▸ hp)
  · rintro _ c₃ rfl w₃ hat₃ ho₃
    exact .of_at hu hat₃ (ho₂.trans ho₃) rfl fun p hp => .inl hp

/-! ### The rows a message writes -/

section
variable {m : Message} {uenv : UpdateEnv}

/-- A message submits its user's task, or leaves the table alone. -/
theorem smallTalk_submits {Q : Chat → Prop} {tenv : SmallTalkEnv}
    (hsubmits : ∀ task, submitted m c.ud.jiraTask = some task →
      wp (inThread (createNewIssue cfg tenv.createIssue m)) (fun _ => Q) (fun _ => Q)
        {c with ud := {c.ud with jiraTask := task}})
    (hstays : ∀ d, SameLists FewerRows c d → Q d) :
    wp (smallTalk cfg tenv m) (fun _ => Q) (fun _ => Q) c := by
  simp only [smallTalk, wp_bind, wp_get, wp_ite, wp_modifyTask]
  refine ⟨fun _ => ?_, fun _ => hstays _ ⟨rfl, fun _ hr => hr⟩⟩
  by_cases hfiles : c.ud.jiraTask.stat = sharedSeparateTeklaFromBimStep6 ∨ c.ud.jiraTask.stat = sharedFinalStep7
  · rcases hfiles with hstat | hstat
    · rw [hstat]
      show wp (sharedSeparateTeklaFromBim cfg tenv m) _ _ c
      rw [sharedSeparateTeklaFromBim, wp_guarded, wp_bind, wp_modifyTask]
      exact ⟨fun htext => hsubmits _ (if_pos ⟨hstat, htext⟩), fun _ => hstays c ⟨rfl, fun _ hr => hr⟩⟩
    · have hsubmitted : submitted m c.ud.jiraTask = some c.ud.jiraTask := by
        rw [submitted, hstat]
        rfl
      rw [hstat]
      exact hsubmits _ hsubmitted
  · have hanswer : Stays (SameLists FewerRows) (answerStep cfg tenv m c.ud.jiraTask.stat) :=
      answerStep_stays cfg tenv m fun h => absurd h hfiles
    exact wp_mono (hanswer.within c) (fun _ d h => hstays d h) fun _ d h => hstays d h

/-- A message is answered in the session of its user, with the task it faces; where the dispatcher
fails, only rows may be gone. -/
theorem wp_message {Q : World → Prop} (hfails : ∀ w' : World, FewerRows w.sh w'.sh → Q w')
    (htalk : ∀ (w₁ : World) (c : Chat), FewerRows w.sh w₁.sh → w₁.sh.notes = w.sh.notes → c.sh = w₁.sh →
      facing cfg uenv w m = some c.ud.jiraTask →
      wp (smallTalk cfg uenv.smallTalk m) (fun _ d => ∀ w', w'.At m.from_.id d → Q w')
        (fun _ d => ∀ w', w'.At m.from_.id d → Q w') c) :
    wp (handleUpdate cfg uenv (.message m)) (fun _ => Q) (fun _ => Q) w := by
  have hdispatch := (sessionDispatcher_stays (S := FewerRows) cfg uenv.dispatcher uenv.now m).within w
  rw [handleUpdate, wp_bind]
  refine wp_mono (wp_run (wp_and hdispatch sessionDispatcher_dispatched)) (fun _ w₁ h₁ => ?_)
    fun _ _ h => hfails _ h.2.1.2
  obtain ⟨hrun, ⟨-, hrows⟩, hnotes, -, u, -, hat⟩ := h₁
  have hfacing : facing cfg uenv w m = some u.jiraTask := by
    simp only [facing, hrun, hat.session, Option.map_some]
  rw [handleSmallTalk]
  refine wp_ownSession hat _ fun w₂ h₂ _ => wp_onSession h₂ ?_
  have htalk := htalk w₁ ((⟨u, w₁.sh⟩ : Chat).touch uenv.now) hrows hnotes rfl hfacing
  exact wp_mono htalk (fun _ _ h w₃ h₃ _ => h w₃ h₃) fun _ _ h w₃ h₃ _ => h w₃ h₃

/-- A row that is new is of the card created meanwhile. -/
theorem message_writes {r : IssueRow} (hr : r ∈ (final (handleUpdate cfg uenv (.message m)) w).sh.db.issues)
    (hnew : r ∉ w.sh.db.issues) :
    Writes cfg w uenv m ∧ r.idCard = createdCard uenv.smallTalk.createIssue := by
  let Written (w' : World) : Prop := r ∈ w'.sh.db.issues →
    Writes cfg w uenv m ∧ r.idCard = createdCard uenv.smallTalk.createIssue
  have hmessage : wp (handleUpdate cfg uenv (.message m)) (fun _ => Written) (fun _ => Written) w := by
    refine wp_message (fun w' hrows hr => absurd (hrows hr) hnew) fun w₁ c hrows _ hsh hfacing => ?_
    have hgone {d : Chat} (hd : d.sh.db.issues = c.sh.db.issues) : r ∉ d.sh.db.issues := by
      rw [hd, hsh]
      exact fun hr => hnew (hrows hr)
    have hdone {d : Chat} (hd : r ∈ d.sh.db.issues →
        Writes cfg w uenv m ∧ r.idCard = createdCard uenv.smallTalk.createIssue) (w' : World)
        (hat : w'.At m.from_.id d) : Written w' := by
      obtain ⟨-, -, -, hsh'⟩ := hat
      intro hr
      exact hd (hsh' ▸ hr)
    refine smallTalk_submits (fun task hsubmitted => ?_) fun d hd => hdone fun hr => ?_
    · rw [wp_inThread]
      by_cases hwrites : uenv.smallTalk.createIssue.Writes ∧ isTekla task = false
      · have hfiled := createNewIssue_filed cfg uenv.smallTalk.createIssue m {c with ud := {c.ud with jiraTask := task}}
        have hcard {d : Chat}
            (h : Filed uenv.smallTalk.createIssue {c with ud := {c.ud with jiraTask := task}} d) :
            ∀ w', w'.At m.from_.id d → Written w' := hdone fun hr => by
          refine ⟨⟨hwrites.1, _, task, hfacing, hsubmitted, hwrites.2⟩, ?_⟩
          rcases h.table with hsame | ⟨task', hidCard, htable⟩
          · exact absurd hr (hgone (congrArg Prod.fst hsame))
          · have hissues : d.sh.db.issues = _ := congrArg Prod.fst htable
            rw [hissues] at hr
            rcases List.mem_append.mp hr with hr | hr
            · exact absurd hr (hgone rfl)
            · rw [List.mem_singleton.mp hr]
              exact hidCard
        refine wp_mono hfiled (fun _ _ => hcard) fun stop _ h => ?_
        cases stop <;> exact hcard h
      · have hsame {d : Chat} (h : d.listing = c.listing) : ∀ w', w'.At m.from_.id d → Written w' :=
          hdone fun hr => absurd hr (hgone (congrArg (fun l => l.2.1) h))
        have hunwritten := @createNewIssue_unwritten cfg uenv.smallTalk.createIssue
          {c with ud := {c.ud with jiraTask := task}} m hwrites
        refine wp_mono hunwritten (fun _ _ => hsame) fun stop _ h => ?_
        cases stop <;> exact hsame h
    · exact absurd (hsh ▸ hd.2 hr) fun hr => hnew (hrows hr)
  exact of_wp (P := fun _ => Written) hmessage hr

end

/-! ### The law -/

/-- A row a statement leaves is one from before, and has its contractor from there or was handed to
another. -/
theorem CheckerStatement.row_run {db : Db} {st : CheckerStatement} {r : IssueRow} (hr : r ∈ (st.run db).issues) :
    ∃ s ∈ db.issues, r.idCard = s.idCard ∧
      (r.contractorId = s.contractorId ∨ st.hands = some (s.idCard, r.contractorId)) := by
  have hupdate (idCard : Text) (f : IssueRow → IssueRow) (hf : ∀ s, (f s).idCard = s.idCard)
      (hr : r ∈ (db.updateIssues idCard f).issues) :
      ∃ s ∈ db.issues, r.idCard = s.idCard ∧ (r = s ∨ s.idCard = idCard ∧ r = f s) := by
    obtain ⟨s, hs, rfl⟩ := List.mem_map.mp hr
    refine ⟨s, hs, ?_⟩
    split
    · next hk => exact ⟨hf s, .inr ⟨hk, rfl⟩⟩
    · exact ⟨rfl, .inl rfl⟩
  cases st with
  | assign idCard c =>
    obtain ⟨s, hs, hk, rfl | ⟨rfl, rfl⟩⟩ := hupdate idCard (IssueRow.assigned c) (fun _ => rfl) hr
    · exact ⟨r, hs, rfl, .inl rfl⟩
    · exact ⟨s, hs, hk, .inr rfl⟩
  | clear idCard =>
    obtain ⟨s, hs, hk, rfl | ⟨rfl, rfl⟩⟩ := hupdate idCard IssueRow.cleared (fun _ => rfl) hr
    · exact ⟨r, hs, rfl, .inl rfl⟩
    · exact ⟨s, hs, hk, .inr rfl⟩
  | list idCard listId =>
    obtain ⟨s, hs, hk, rfl | ⟨rfl, rfl⟩⟩ := hupdate idCard (IssueRow.listed listId) (fun _ => rfl) hr
    · exact ⟨r, hs, rfl, .inl rfl⟩
    · exact ⟨s, hs, hk, .inl rfl⟩
  | delete idCard => exact ⟨r, (List.mem_filter.mp hr).1, rfl, .inl rfl⟩

/-- An update of the bot. -/
theorem Held.update (h : Held w) {uenv : UpdateEnv} {x : Update} (he : (Event.update uenv x).Leaves cfg w) :
    Held (final (handleUpdate cfg uenv x) w) := by
  obtain ⟨hfiled, hlisted⟩ := he
  have hold {w' : World} (hlists : ∀ user k, w'.Lists user k → w.Lists user k)
      (hrows : ∀ r ∈ w'.sh.db.issues, r ∉ w.sh.db.issues → ∀ user, ¬w.Lists user r.idCard) : Held w' := by
    rintro user k hk r hr rfl
    by_cases hnew : r ∈ w.sh.db.issues
    · exact h user r.idCard (hlists _ _ hk) r hnew rfl
    · exact absurd (hlists _ _ hk) (hrows r hr hnew user)
  by_cases hx : ∃ q, x = .callback q ∧ buttonOf q.data = some .myTasks
  · obtain ⟨q, rfl, hb⟩ := hx
    have hrelisted := of_wp (P := fun _ => Relisted q.from_.id q.messageId
      (myRows uenv.callback.myIssues w.sh.db q.from_.id) w) (@myTasks_relisted cfg uenv.callback q uenv.now w hb)
    rintro user k hk r hr rfl
    have hr' := hrelisted.2 hr
    rcases hrelisted.1 user r.idCard hk with hk | ⟨rfl, hmenu, s, hs, hsame⟩
    · exact h user r.idCard hk r hr' rfl
    · exact hlisted q rfl hb hmenu s hs r hr' hsame.symm
  · cases x with
    | callback q =>
      have hstays : Stays (KeptLists FewerRows) (onCallbackQuery cfg uenv.callback q uenv.now) :=
        onCallbackQuery_stays fun hb => hx ⟨q, rfl, hb⟩
      have hdone := of_wp (P := fun _ => KeptLists FewerRows w) (hstays.within w)
      exact hold (fun _ _ => hdone.lists) fun r hr hnew => absurd (hdone.2 hr) hnew
    | command name m =>
      have hstays : Stays (KeptLists FewerRows) (handleUpdate cfg uenv (.command name m)) := handleUpdate_stays_command
      have hdone := of_wp (P := fun _ => KeptLists FewerRows w) (hstays.within w)
      exact hold (fun _ _ => hdone.lists) fun r hr hnew => absurd (hdone.2 hr) hnew
    | message m =>
      have hstays := (@handleUpdate_stays cfg uenv (.message m) fun _ => by simp).within w
      have hdone := of_wp (P := fun _ => KeptLists Anything w) hstays
      refine hold (fun _ _ => hdone.lists) fun r hr hnew user => ?_
      obtain ⟨hwrites, hcard⟩ := message_writes hr hnew
      rw [hcard]
      exact hfiled m rfl hwrites user

section
variable {S : Shared → Shared → Prop} [Std.Refl S] [IsTrans Shared S] [OfRegisters S]

omit [Std.Refl S] in
theorem getTaskInfo_stays (issueKey : Text) (ienv : TaskInfoEnv) :
    Stays S (getTaskInfo cfg issueKey ienv) := by
  have hnotified (notified : List (Text × Text)) :
      Stays S (modify fun s : Shared => {s with mNotifiedAssignee := notified} : ServiceM Unit) :=
    ⟨.writes fun _ => OfRegisters.of_registers rfl⟩
  unfold getTaskInfo
  refine ⟨Within.bind Stays.within fun reply => ?_⟩
  cases reply with
  | noHandle => exact Stays.within
  | failed => exact Stays.within
  | answered status body =>
    dsimp only
    split
    · exact Stays.within
    · cases body with
      | none => exact Stays.within
      | some v => exact Stays.within

/-- Tasks of the main thread add no row. -/
theorem runTask_stays (tenv : TaskEnv) (task : Task) : Stays S (runTask cfg tenv task) := by
  cases task with
  | jiraWebhook requestUrl =>
    have hinfo : Stays S (getTaskInfo cfg (afterLast '/' requestUrl) tenv.taskInfo) := getTaskInfo_stays _ _
    unfold runTask jiraWebhooksHandler
    infer_instance
  | qtBgWorker =>
    have hsize (path : Text) (r : Answer (Option Int)) : Stays S (getMemSize path r) := by
      unfold getMemSize
      refine ⟨Within.bind Stays.within fun size => ?_⟩
      cases size <;> exact Stays.within
    unfold runTask qtBgWorker
    infer_instance

end

/-- One step that leaves issues to their contractors. -/
theorem Held.after (h : Held w) {e : Event} (he : e.Leaves cfg w) : Held (e.after cfg w) := by
  cases e with
  | update uenv x => exact h.update he
  | job tenv task =>
    have hstays : Stays (KeptLists FewerRows) (serviceBot (runTask cfg tenv task)) := by
      have htask : Stays FewerRows (runTask cfg tenv task) := runTask_stays tenv task
      infer_instance
    have hdone := of_wp (P := fun _ => KeptLists FewerRows w) (hstays.within w)
    rintro user k hk r hr rfl
    exact h user r.idCard (hdone.lists hk) r (hdone.2 hr) rfl
  | statement st =>
    rintro user k hk r hr rfl
    obtain ⟨s, hs, hcard, hsame | hhanded⟩ := CheckerStatement.row_run hr
    · rw [hsame]
      exact h user r.idCard hk s hs hcard.symm
    · rw [← hcard] at hhanded
      exact he r.idCard r.contractorId hhanded user hk s hs hcard.symm

/-- **The law.** In every run of the two programs whose steps leave issues to their contractors, a
click that closes an issue removes rows of the contractor who clicked only. -/
theorem closed_by_assignee {sh : Shared} {es : List Event} (h : AllLeave cfg {sh} es) :
    ClosesOwn cfg (World.after cfg {sh} es) := by
  have hheld : ∀ (es : List Event) (w : World), Held w → AllLeave cfg w es → Held (w.after cfg es) := by
    intro es
    induction es with
    | nil => exact fun _ hw _ => hw
    | cons e es ih => exact fun w hw hes => ih (e.after cfg w) (hw.after hes.1) hes.2
  refine (hheld es {sh} ?_ h).closesOwn
  rintro user k ⟨u, hu, -⟩
  cases hu

end

/-! ### A card that changes hands -/

/-- The row of card `c1`, which contractor 3 has. -/
def held3 : Shared where
  db := {issues := [{ id := 300, idCard := of "c1", cardStatus := of "underway"
                      contractorId := of "3", contractorList := of "three" }]}

def columns : Config := {distributionList := of "new"}

/-- 3 asks for his list and starts on the issue. -/
def start3 : List Event :=
  [startFrom 3, clickFrom 3 "my_tasks", clickFrom 3 "start_solving"].map fun x => .update (.calm 0) x

/-- The table after a pass that finds every card in this column. -/
def passed (column : Text) (db : Db) : Db :=
  (final (checkTheList columns (.over (fun _ => some ⟨false, column⟩) db))
    {sh := {db, vContractors := [⟨3, [], [], of "three"⟩, ⟨4, [], [], of "four"⟩]}}).sh.db

/-- What two passes do when the card is put back into the first column, then into that of 4. -/
def handOver : List Event :=
  [.statement (.list (of "c1") (of "new")), .statement (.clear (of "c1")),
    .statement (.list (of "c1") (of "four")), .statement (.assign (of "c1") ⟨4, [], [], of "four"⟩)]

theorem handOver_passes :
    (World.after columns {sh := held3} (start3 ++ handOver)).sh.db.issues =
      (passed (of "four") (passed (of "new") (World.after columns {sh := held3} start3).sh.db)).issues := by
  decide +kernel

/-- The same card, before the checker has given it to 3. -/
def waiting3 : Shared where
  db := {issues := [{id := 300, idCard := of "c1", cardStatus := of "pending"}]}

/-- 3 gets the card, asks for his list and starts on the issue, and the checker records the column. -/
def given3 : List Event :=
  .statement (.assign (of "c1") ⟨3, [], [], of "three"⟩) :: start3 ++ [.statement (.list (of "c1") (of "three"))]

theorem given3_leaves : AllLeave columns {sh := waiting3} given3 := by
  refine ⟨?_, ⟨?_, ?_⟩, ⟨?_, ?_⟩, ⟨?_, ?_⟩, ?_, trivial⟩
  · rintro k id - user ⟨u, hu, -⟩
    cases hu
  · rintro m ⟨⟩
  · rintro q ⟨⟩
  · rintro m ⟨⟩
  · rintro q ⟨rfl⟩ - -
    decide +kernel
  · rintro m ⟨⟩
  · rintro q ⟨rfl⟩ hb
    exact absurd hb (by decide)
  · rintro k id ⟨⟩

theorem closed_by_assignee_start :
    let w := World.after columns {sh := waiting3} given3
    (w.session 3).map (fun u => u.pgdbIssues.map PgdbIssue.idCard) = some [of "c1"] ∧ ClosesOwn columns w :=
  ⟨by decide +kernel, closed_by_assignee given3_leaves⟩

def held4 : IssueRow :=
  { id := 300, idCard := of "c1", cardStatus := of "underway", idCardList := of "four"
    contractorId := of "4", contractorList := of "four" }

/-- After the hand-over 3 ends the issue, and the row of 4 is gone. -/
theorem closed_by_another :
    ¬∀ (cfg : Config) (sh : Shared) (es : List Event), ClosesOwn cfg (World.after cfg {sh} es) := by
  intro hall
  have hcloses := hall columns held3 (start3 ++ handOver)
  have hrows : (World.after columns {sh := held3} (start3 ++ handOver)).sh.db.issues = [held4] := by
    decide +kernel
  have hgone : (final (handleUpdate columns (.calm 0)
      (.callback ⟨[], ⟨3, [], []⟩, 1, ⟨3, []⟩, Button.taskClosing.data⟩))
      (World.after columns {sh := held3} (start3 ++ handOver))).sh.db.issues = [] := by decide +kernel
  generalize World.after columns {sh := held3} (start3 ++ handOver) = w at hcloses hrows hgone
  have hmem : held4 ∈ w.sh.db.issues := by
    rw [hrows]
    exact List.mem_singleton_self _
  have hclosed := hcloses (.calm 0) ⟨[], ⟨3, [], []⟩, 1, ⟨3, []⟩, Button.taskClosing.data⟩ (by decide) held4 hmem
    (by rw [hgone]; exact List.not_mem_nil)
  revert hclosed
  decide

end Chanserv
