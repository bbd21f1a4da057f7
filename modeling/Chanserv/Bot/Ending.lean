import Chanserv.Bot.Provenance
import Chanserv.Bot.WorkDay

/-! A contractor can end an issue he has.

Whatever state his session is in: /start gives him a menu, the menu his list, and
under the message of an issue he starts on it and ends it. Between these four
updates anything may happen that leaves his list and his last menu alone. Then the
card of the issue is archived, and its rows are gone, but no others. -/
namespace Chanserv
open Text Program

/-! ### One update -/

/-- The cards archived so far. -/
def Shared.archived (s : Shared) : List Text :=
  s.trace.filterMap fun
    | .archivingCard card => some card
    | _ => none

/-- The user has a session like this. -/
def World.Has (w : World) (me : Int) (P : UserDispatcher → Prop) : Prop := ∃ u, w.session me = some u ∧ P u

/-- A click under a message of a user. -/
structure CallbackQuery.Under (q : CallbackQuery) (me m : Int) (b : Button) : Prop where
  user : q.from_.id = me
  message : q.messageId = m
  button : buttonOf q.data = some b

section
variable {cfg : Config} {env : CallbackEnv} {q : CallbackQuery} {now me : Int} {c : Chat} {u : UserDispatcher} {w : World}

theorem World.At.has {P : UserDispatcher → Prop} (hat : w.At me c) (h : P c.ud) : w.Has me P := ⟨c.ud, hat.session, h⟩

/-- Everyone may press the buttons of his list. -/
theorem open_issueButton {b : Button} (hb : b = .startSolving ∨ b = .taskClosing) :
    roleForCallback b.data = .anyone ∧ ¬(isApprove b.data ∨ isReject b.data) := by
  rcases hb with rfl | rfl <;> decide

/-- A click in the session of a user, on the issue its message stands for. -/
theorem wp_clickOn {b : Button} {issue : Option PgdbIssue} {Q : Unit → World → Prop} {E : Stop → World → Prop}
    (hopen : roleForCallback b.data = .anyone ∧ ¬(isApprove b.data ∨ isReject b.data)) (hq : buttonOf q.data = some b)
    (hu : w.session q.from_.id = some u)
    (hselected : getSelectedIssueId q.messageId u.pgdbIssues u.recentMsgIds u.recentMsgs = some issue)
    (h : ∀ w', w'.At q.from_.id ((⟨u, w.sh⟩ : Chat).touch now) → wp (pressButton cfg env q now issue b) Q E w') :
    wp (onCallbackQuery cfg env q now) Q E w := by
  rw [← data_of_buttonOf hq] at hopen
  refine wp_ownClick hopen.2 (fun hn => absurd (hopen.1 ▸ isAllowed_anyone _ _) hn) ?_
  rw [ownCallback]
  refine wp_inSession _ _ (fun hs => ?_) fun v hv w₂ hat₂ _ => ?_
  · rw [hu] at hs
    cases hs
  · obtain rfl := Option.some.inj (hu.symm.trans hv)
    have hclicked : getSelectedIssueId q.messageId ((⟨u, w.sh⟩ : Chat).touch now).ud.pgdbIssues
        ((⟨u, w.sh⟩ : Chat).touch now).ud.recentMsgIds ((⟨u, w.sh⟩ : Chat).touch now).ud.recentMsgs = some issue :=
      hselected
    rw [wp_bind]
    refine wp_onSession hat₂ ?_
    rw [clickedIssue, wp_bind, wp_get, hclicked, wp_pure]
    intro w₃ hat₃ _
    rw [hq]
    exact h w₃ hat₃

theorem wp_issueClick {b : Button} {f : PgdbIssue → ChatM Unit} {p : PgdbIssue} {Q : Unit → World → Prop}
    {E : Stop → World → Prop} (hb : b = .startSolving ∨ b = .taskClosing) (hq : buttonOf q.data = some b)
    (hpress : pressButton cfg env q now (some p) b = onSession (f p)) (hu : w.session q.from_.id = some u)
    (hselected : getSelectedIssueId q.messageId u.pgdbIssues u.recentMsgIds u.recentMsgs = some (some p))
    (h : wp (f p) (fun a c' => ∀ w', w'.At q.from_.id c' → Q a w')
      (fun stop c' => ∀ w', w'.At q.from_.id c' → E stop w') ((⟨u, w.sh⟩ : Chat).touch now)) :
    wp (onCallbackQuery cfg env q now) Q E w := by
  refine wp_clickOn (open_issueButton hb) hq hu hselected fun w₃ hat₃ => ?_
  rw [hpress]
  exact wp_onSession hat₃ (wp_mono h (fun _ _ hc w' hat' _ => hc w' hat') fun _ _ hc w' hat' _ => hc w' hat')

/-- A start on an issue makes its message the one that is clicked. -/
theorem onStartSolving_takes (henv : env.Delivers) (hzero : c.ud.clickedMsgId = 0) (issue : PgdbIssue) :
    wp (onStartSolving env q issue)
      (fun _ c' => c'.ud.clickedMsgId = q.messageId ∧ c'.ud.lists = c.ud.lists)
      (fun _ c' => c'.ud.clickedMsgId = q.messageId ∧ c'.ud.lists = c.ud.lists) c := by
  rw [onStartSolving, wp_bind, wp_get, wp_guarded]
  refine ⟨fun _ => ?_, fun hbusy => absurd hzero hbusy⟩
  rw [wp_bind, wp_catchingTg, wp_bind, wp_service, wp_call]
  refine ⟨fun _ _ => ?_, fun x hx => (henv.editMarkup.not_throws hx).elim⟩
  rw [wp_modifySession, wp_bind, wp_service, wp_call]
  refine ⟨fun _ _ => ?_, fun _ _ => ⟨rfl, rfl⟩⟩
  rw [wp_service, changeCardColor, wp_call]
  exact ⟨fun _ _ => ⟨rfl, rfl⟩, fun _ _ => ⟨rfl, rfl⟩⟩

/-- Trello archives the card, and its rows can be deleted. -/
structure CallbackEnv.Ends (env : CallbackEnv) : Prop extends env.Delivers where
  archive : env.archive.Normal
  deleted : env.deleteIssue = .returns true

/-- An end archives the card of the issue and deletes its rows, when there is a message that is clicked. -/
theorem onTaskClosing_ends (henv : env.Ends) (hclicked : c.ud.clickedMsgId ≠ 0) (issue : PgdbIssue) :
    wp (onTaskClosing cfg env q issue)
      (fun _ c' => c'.sh.db = c.sh.db.deleteIssue issue.idCard ∧ c'.sh.archived = c.sh.archived ++ [issue.idCard])
      (fun _ _ => False) c := by
  have hlog (e : Effect) (s : Shared) (he : ∀ card, e ≠ .archivingCard card) : (s.log e).archived = s.archived := by
    rw [Shared.archived, Shared.filterMap_log]
    cases e with
    | archivingCard card => exact absurd rfl (he card)
    | _ => exact List.append_nil _
  -- how far the handler is beside the notice
  let Made (_ : Nat) (k : Nat) (s : Shared) : Prop :=
    s.db = (if 2 ≤ k then c.sh.db.deleteIssue issue.idCard else c.sh.db) ∧
      s.archived = c.sh.archived ++ if 1 ≤ k then [issue.idCard] else []
  rw [onTaskClosing, wp_bind, wp_get, wp_guarded]
  refine ⟨fun _ => ?_, fun hzero => absurd hclicked hzero⟩
  rw [wp_bind, wp_service, wp_call]
  refine ⟨fun _ _ => ?_, fun x hx => (henv.editMarkup.not_throws hx).elim⟩
  rw [wp_bind, wp_modifySession, wp_bind, wp_service, wp_call]
  refine ⟨fun _ _ => ?_, fun x hx => (henv.alert.not_throws hx).elim⟩
  rw [wp_service]
  refine wp_mono (wp_besideNotice (I := Made) (J := fun _ _ => False) ?_ ?_ (fun _ _ _ _ => False.elim) ?_) ?_ ?_
  · intro i employee _ k s h
    exact ⟨h.1, (hlog _ _ fun _ => by simp).trans h.2⟩
  · intro k m hm i s h
    rcases k with _ | _ | k
    · cases hm
      rw [archivingCard, wp_call]
      refine ⟨fun _ _ => ⟨h.1, ?_⟩, fun x hx => (henv.archive.not_throws hx).elim⟩
      rw [Shared.archived, Shared.filterMap_log]
      exact congrArg (· ++ [issue.idCard]) (h.2.trans (List.append_nil _))
    · cases hm
      rw [wp_bind, deleteIssueFromDb, henv.deleted, wp_sql_returns]
      exact ⟨congrArg (Db.deleteIssue · issue.idCard) h.1, (hlog (.deleteIssue issue.idCard) _ fun _ => by simp).trans h.2⟩
    · cases hm
  · refine ⟨rfl, ?_⟩
    rw [hlog _ _ fun _ => by simp, hlog _ _ fun _ => by simp]
    exact (List.append_nil _).symm
  · exact fun _ s h => h.2
  · rintro stop s (⟨-, h⟩ | ⟨-, -, _, h⟩ | ⟨-, i, hfails, -⟩)
    · exact h
    · exact h
    · exact (henv.staff i).not_throws hfails.failed

/-- The last message of /start is the menu. -/
theorem startMenu_gives {cenv : CommandEnv} (henv : cenv.Delivers) (m : Message) :
    wp (startMenu cfg cenv m) (fun _ c' => c'.ud.clickedMsgId = cenv.menuId) (fun _ _ => False) c := by
  obtain ⟨sent, hsent, -⟩ := henv.menu
  have hmenu (prompt : Text) (kb : Keyboard) (c : Chat) :
      wp (sendMenu cenv m prompt kb) (fun _ c' => c'.ud.clickedMsgId = cenv.menuId) (fun _ _ => False) c := by
    rw [sendMenu, wp_bind, wp_service, wp_call, CommandEnv.menuId, hsent]
    refine ⟨?_, fun x hx => by cases hx⟩
    rintro _ ⟨rfl⟩
    rw [wp_modifySession]
  rw [startMenu, wp_ite]
  refine ⟨fun _ => hmenu _ _ _, fun _ => ?_⟩
  rw [wp_bind, wp_service, wp_call]
  refine ⟨fun _ _ => ?_, fun x hx => (henv.greeting.not_throws hx).elim⟩
  simp only [wp_bind, wp_get, wp_ite]
  exact ⟨fun _ => hmenu _ _ _, fun _ => ⟨fun _ => hmenu _ _ _, fun _ => hmenu _ _ _⟩⟩

/-- The database can be asked and told about consumers. -/
structure DispatcherEnv.Answers (env : DispatcherEnv) : Prop where
  insertConsumer : env.insertConsumer.Normal
  commit : env.commit.Normal
  selectConsumers : env.selectConsumers.Normal

theorem addConsumerToDb_completes {denv : DispatcherEnv} (henv : denv.Answers) (user : TgUser) (s : Shared) :
    Completes (addConsumerToDb denv user) s := by
  rw [Completes, addConsumerToDb, wp_bind, wp_get, wp_guarded]
  refine ⟨fun _ => ?_, fun _ => trivial⟩
  have hcommit (s : Shared) : wp (do let _ ← call .commit denv.commit) (fun _ _ => True) (fun _ _ => False) s := by
    rw [wp_bind, wp_call]
    exact ⟨fun _ _ => trivial, fun x hx => henv.commit.not_throws hx⟩
  rw [wp_bind, wp_sql]
  refine ⟨fun _ => ?_, fun _ => ?_, fun x hx => henv.insertConsumer.not_throws hx⟩
  · exact wp_guarded_of rfl (hcommit _)
  · exact wp_guarded_of_not Bool.false_ne_true trivial

/-- The dispatcher finds a session for everyone. -/
theorem sessionDispatcher_completes {denv : DispatcherEnv} {m : Message} (henv : denv.Answers) :
    Completes (sessionDispatcher cfg denv now m) w := by
  have hfinds {create : World → World} (w : World) : Completes (do
      evictIdleSessions cfg now
      let found ← selectSession now m.from_.id
      guarded (found = false) (modify create)) w := by
    rw [Completes, wp_bind]
    refine wp_mono evictIdleSessions_cleaned (fun _ w₁ _ => ?_) fun _ _ hf => hf
    rw [wp_bind]
    refine wp_selectSession _ _ (fun _ => ?_) fun _ _ w₂ _ _ => ?_
    · exact wp_guarded_of rfl trivial
    · exact wp_guarded_of_not Bool.false_ne_true.symm trivial
  rw [Completes, sessionDispatcher, wp_bind, wp_get, wp_bind, wp_guarded]
  refine ⟨fun _ => ?_, fun _ => hfinds w⟩
  rw [serviceBot, wp_zoom, wp_bind]
  refine wp_mono (addConsumerToDb_completes henv m.from_ w.sh) (fun _ s _ => ?_) fun _ _ hf => hf
  rw [reloadConsumersList, wp_bind, wp_modify, wp_bind, wp_select]
  exact ⟨fun _ => hfinds _, fun _ => hfinds _, fun x hx => henv.selectConsumers.not_throws hx⟩

/-- /start gives a menu. -/
theorem start_gives {m : Message} {uenv : UpdateEnv} (hdispatcher : uenv.dispatcher.Answers)
    (henv : uenv.command.Delivers) :
    wp (handleUpdate cfg uenv (.command .start m))
      (fun _ w' => w'.Has m.from_.id fun u => u.clickedMsgId = uenv.command.menuId) (fun _ _ => False) w := by
  rw [handleUpdate, wp_bind]
  refine wp_mono (wp_and (sessionDispatcher_completes hdispatcher) (sessionDispatcher_arrives Shared.edits)) ?_
    fun _ _ hf => hf.1
  rintro _ w₁ ⟨-, hat, -⟩
  rw [onCommand]
  refine wp_ownSession hat _ fun w₂ hat₂ _ => ?_
  rw [wp_bind]
  refine wp_onSession hat₂ ((wp_modifyTask _).mpr fun w₃ hat₃ _ => ?_)
  rw [onStartCommand]
  refine wp_ownSession hat₃ _ fun w₄ hat₄ _ => wp_onSession hat₄ ?_
  exact wp_mono (startMenu_gives henv m) (fun _ c₅ h₅ w₅ hat₅ _ => hat₅.has h₅) fun _ _ hf => hf.elim

instance {α : Type} {m : ServiceM α} : Frames (fun c : Chat => c.ud.clickedMsgId) (service m) where
  keeps c := by
    rw [wp_service]
    unfold wp
    cases m.run c.sh with
    | ok a s => rfl
    | error stop s => exact ⟨trivial, rfl⟩

/-- A list is shown to its end, and makes no message the clicked one. -/
theorem showMyIssues_gives (henv : env.Delivers) (hselect : env.myIssues.selectIssues = .returns true) (receiver : Int) :
    wp (showMyIssues cfg env.myIssues receiver)
      (fun _ c' => c'.ud.clickedMsgId = c.ud.clickedMsgId ∧
        Remembers c'.ud (listed env.myIssues 0 (myRows env.myIssues c.sh.db receiver)))
      (fun _ _ => False) c := by
  have hsafe : ListSafe cfg env.myIssues c.sh.db receiver := by
    refine ⟨by rw [hselect]; trivial, fun i _ => ?_, fun _ _ => ⟨henv.noTasks, fun _ => henv.sticker⟩⟩
    obtain ⟨sent, hsent, -⟩ := henv.shown i
    rw [hsent]
    trivial
  have hclicked : Frames (fun c : Chat => c.ud.clickedMsgId) (showMyIssues cfg env.myIssues receiver) := by
    have hforget : Frames (fun c : Chat => c.ud.clickedMsgId) (modifySession forgetIssues) := ⟨.writes fun _ => rfl⟩
    have hremember (issue : PgdbIssue) (sent : Sent) :
        Frames (fun c : Chat => c.ud.clickedMsgId) (modifySession (rememberIssue issue sent)) := ⟨.writes fun _ => rfl⟩
    unfold showMyIssues showRows
    infer_instance
  refine wp_mono (wp_and (showMyIssues_completes hsafe) (wp_and (hclicked.keeps c) showMyIssues_remembers)) ?_ ?_
  · exact fun _ c' h => ⟨h.2.1, h.2.2.2.2⟩
  · exact fun _ _ h => h.1.elim

theorem Remembers.seated {issues : List PgdbIssue} (h : Remembers u issues) :
    Chanserv.Seated ⟨u.clickedMsgId, u.recentMsgIds⟩ u := by
  refine ⟨rfl, rfl, ?_, ?_⟩
  · rw [h.msgs, h.ids, List.map_map]
    rfl
  · rw [h.msgs, h.pgdbIssues, List.map_map]
    rfl

/-- Where the vectors agree, every message stands for an issue or for none. -/
theorem wp_ownButton {b : Button} {Q : Unit → World → Prop} {E : Stop → World → Prop} {issues : List PgdbIssue}
    (hopen : roleForCallback b.data = .anyone ∧ ¬(isApprove b.data ∨ isReject b.data)) (hq : buttonOf q.data = some b)
    (hu : w.session q.from_.id = some u) (hremembers : Remembers u issues)
    (h : ∀ issue w', w'.At q.from_.id ((⟨u, w.sh⟩ : Chat).touch now) →
      wp (pressButton cfg env q now issue b) Q E w') : wp (onCallbackQuery cfg env q now) Q E w := by
  obtain ⟨issue, hissue, -⟩ := hremembers.seated.selected (c := ⟨u, w.sh⟩) q.messageId
  exact wp_clickOn hopen hq hu hissue (h issue)

/-- The menu gives the list. -/
theorem myTasks_gives (henv : env.Delivers) (hselect : env.myIssues.selectIssues = .returns true)
    (hq : buttonOf q.data = some .myTasks)
    (hmenu : w.Has q.from_.id fun u => u.clickedMsgId = q.messageId ∧ ∃ issues, Remembers u issues) :
    wp (onCallbackQuery cfg env q now)
      (fun _ w' => w'.Has q.from_.id fun u =>
        u.clickedMsgId = 0 ∧ Remembers u (listed env.myIssues 0 (myRows env.myIssues w.sh.db q.from_.id)))
      (fun _ _ => False) w := by
  obtain ⟨u, hu, hclicked, issues, hremembers⟩ := hmenu
  refine wp_ownButton (by decide) hq hu hremembers fun issue w₃ hat₃ => ?_
  show wp (onMyTasks cfg env q now) _ _ w₃
  rw [onMyTasks, wp_bind]
  refine wp_onSession hat₃ ?_
  rw [spendMenu, wp_bind, wp_get, wp_ite]
  refine ⟨fun _ => ?_, fun hn => absurd hclicked hn⟩
  rw [wp_bind, wp_modifySession, wp_pure]
  intro w₄ hat₄ _
  refine wp_guarded_of rfl ?_
  rw [wp_inThread, getMyIssues]
  refine wp_ownSession hat₄ now fun w₅ hat₅ _ => wp_onSession hat₅ ?_
  refine wp_mono (showMyIssues_gives henv hselect q.from_.id) (fun _ c₆ h₆ w₆ hat₆ _ => hat₆.has h₆) ?_
  exact fun _ _ hf => hf.elim

end

/-! ### Sessions in a history -/

section
variable {cfg : Config} {P : UserDispatcher → Prop} {w : World}

/-- What lists alone decide, of an empty list and of any that is shown, is so in all sessions. -/
theorem Deed.after_each (hP : ∀ u u' : UserDispatcher, u'.lists = u.lists → P u → P u')
    (hnew : ∀ u : UserDispatcher, u.lists = ([], [], []) → P u)
    (hshow : ∀ (env : MyIssuesEnv) (receiver : Int) (c : Chat), P c.ud →
      wp (showMyIssues cfg env receiver) (fun _ c' => P c'.ud) (fun _ c' => P c'.ud) c)
    (d : Deed) (hw : w.Each P) : (d.after cfg w).Each P := by
  have hkept {S : Shared → Shared → Prop} {m : BotM Unit} (hstays : Stays (KeptLists S) m) : (final m w).Each P := by
    have hlists := of_wp (P := fun _ => KeptLists S w) (hstays.within w)
    intro b u' hu'
    rcases hlists.1 b u' hu' with hempty | ⟨u, hu, hsame⟩
    · exact hnew u' hempty
    · exact hP u u' hsame (hw b u hu)
  cases d with
  | update env x =>
    cases x with
    | message m => exact hkept (handleUpdate_stays fun _ => by simp)
    | command name m => exact hkept (handleUpdate_stays fun _ => by simp)
    | callback q =>
      by_cases hb : buttonOf q.data = some .myTasks
      · have hclick : wp (handleUpdate cfg env (.callback q)) (fun _ w' => w'.Each P) (fun _ w' => w'.Each P) w :=
          myTasks_keeps hb hP (fun c _ hc => hshow env.callback.myIssues q.from_.id c hc) hw
        exact of_wp (P := fun _ => World.Each P) hclick
      · have hstays : Stays (KeptLists FewerRows) (onCallbackQuery cfg env.callback q env.now) :=
          onCallbackQuery_stays hb
        exact hkept hstays
  | job env task =>
    have htask : Stays FewerRows (runTask cfg env task) := runTask_stays env task
    have hstays : Stays (KeptLists FewerRows) (serviceBot (runTask cfg env task)) := inferInstance
    exact hkept hstays
  | restart sh =>
    intro b u hu
    cases hu
  | queued tasks => exact hw
  | inspected i => exact hw
  | others db skipped => exact hw

/-- The vectors of every session agree. -/
theorem World.lived_remembers (hw : w.Each fun u => ∃ issues, Remembers u issues) (ds : List Deed) :
    (w.lived cfg ds).Each fun u => ∃ issues, Remembers u issues := by
  induction ds generalizing w with
  | nil => exact hw
  | cons d ds ih =>
    refine ih (Deed.after_each ?_ ?_ ?_ d hw)
    · rintro u u' hlists ⟨issues, h⟩
      simp only [UserDispatcher.lists, Prod.mk.injEq] at hlists
      exact ⟨issues, hlists.2.2.trans h.pgdbIssues, hlists.1.trans h.msgs, hlists.2.1.trans h.ids⟩
    · intro u hempty
      simp only [UserDispatcher.lists, Prod.mk.injEq] at hempty
      exact ⟨[], hempty.2.2, hempty.1, hempty.2.1⟩
    · intro env receiver c hc
      refine wp_mono showMyIssues_remembers (fun _ _ h => ⟨_, h.2.2⟩) fun _ c' h => ?_
      rcases h with ⟨-, hud⟩ | ⟨-, h⟩
      · rw [hud]
        exact hc
      · exact ⟨_, h⟩

end

/-! ### The list shown -/

section
variable {env : CallbackEnv} {rows : List IssueRow}

/-- Where all messages go out, the list is of all rows, in their order. -/
theorem listed_all (henv : env.Delivers) (i : Nat) (rows : List IssueRow) :
    (listed env.myIssues i rows).map PgdbIssue.sentMsgId = (List.range' i rows.length).map env.myIssues.sentId ∧
      (listed env.myIssues i rows).map PgdbIssue.id = rows.map IssueRow.id ∧
      (listed env.myIssues i rows).map PgdbIssue.idCard = rows.map IssueRow.idCard := by
  induction rows generalizing i with
  | nil => exact ⟨rfl, rfl, rfl⟩
  | cons row rows ih =>
    obtain ⟨sent, hsent, -⟩ := henv.shown i
    obtain ⟨hmsgs, hids, hcards⟩ := ih (i + 1)
    have hid : env.myIssues.sentId i = sent.messageId := by rw [MyIssuesEnv.sentId, hsent]
    rw [listed_sent hsent]
    refine ⟨?_, ?_, ?_⟩
    · rw [List.map_cons, hmsgs, List.length_cons, List.range'_succ, List.map_cons, hid]
      rfl
    · rw [List.map_cons, hids]
      rfl
    · rw [List.map_cons, hcards]
      rfl

/-- So every row has a message, and its card is found by it. -/
theorem listed_finds (henv : env.Delivers) (hmsgs : (env.myIssues.sentIds rows.length).Nodup)
    (hids : (rows.map IssueRow.id).Nodup) {r : IssueRow} (hr : r ∈ rows) :
    ∃ n ≠ 0, ∃ p : PgdbIssue, p.idCard = r.idCard ∧
      ∀ u : UserDispatcher, Remembers u (listed env.myIssues 0 rows) →
        getSelectedIssueId n u.pgdbIssues u.recentMsgIds u.recentMsgs = some (some p) := by
  obtain ⟨hsent, hrows, hcards⟩ := listed_all henv 0 rows
  rw [← List.range_eq_range'] at hsent
  obtain ⟨k, hk, rfl⟩ := List.mem_iff_getElem.mp hr
  have hlength : (listed env.myIssues 0 rows).length = rows.length := by
    simpa using congrArg List.length hrows
  have hp : (listed env.myIssues 0 rows)[k]? = some (listed env.myIssues 0 rows)[k] :=
    List.getElem?_eq_getElem (hlength ▸ hk)
  generalize (listed env.myIssues 0 rows)[k] = p at hp
  have hmem : p ∈ listed env.myIssues 0 rows := List.mem_of_getElem? hp
  refine ⟨p.sentMsgId, ?_, p, ?_, fun u hu => ?_⟩
  · have hnumber : p.sentMsgId ∈ env.myIssues.sentIds rows.length := by
      rw [MyIssuesEnv.sentIds, ← hsent]
      exact List.mem_map_of_mem hmem
    intro hzero
    exact sentIds_numbered henv rows.length (hzero ▸ hnumber)
  · have hcard : ((listed env.myIssues 0 rows).map PgdbIssue.idCard)[k]? = (rows.map IssueRow.idCard)[k]? := by
      rw [hcards]
    rw [List.getElem?_map, List.getElem?_map, hp, List.getElem?_eq_getElem hk] at hcard
    exact Option.some.inj hcard
  · rcases hu.selected (hrows ▸ hids) p.sentMsgId with ⟨hnot, -⟩ | ⟨p', hp', hsame, hselected⟩
    · exact absurd (List.mem_map_of_mem hmem) hnot
    · rw [hselected, List.inj_on_of_nodup_map (hsent ▸ hmsgs) hp' hmem hsame]

end

/-! ### The way to the end -/

/-- The list of a user and his last menu are as they were. -/
def SameDesk (me : Int) (w w' : World) : Prop :=
  (w'.session me).map (fun u => (u.clickedMsgId, u.lists)) = (w.session me).map fun u => (u.clickedMsgId, u.lists)

/-- What is asked of Telegram, Trello and the database succeeds, and messages have numbers of their own. -/
structure UpdateEnv.Works (env : UpdateEnv) : Prop where
  dispatcher : env.dispatcher.Answers
  command : env.command.Delivers
  callback : env.callback.Ends
  select : env.callback.myIssues.selectIssues = .returns true
  distinct : ∀ n, (env.callback.myIssues.sentIds n).Nodup

section
variable {cfg : Config} {me : Int} {w w' : World} {P : Int → List MostRecentMsgs × List Int × List PgdbIssue → Prop}

theorem SameDesk.refl (me : Int) (w : World) : SameDesk me w w := rfl

/-- What the list and the last menu decide. -/
theorem SameDesk.has (h : SameDesk me w w') (hw : w.Has me fun u => P u.clickedMsgId u.lists) :
    w'.Has me fun u => P u.clickedMsgId u.lists := by
  obtain ⟨u, hu, hP⟩ := hw
  unfold SameDesk at h
  rw [hu] at h
  obtain ⟨u', hu', hsame⟩ := Option.map_eq_some_iff.mp h
  obtain ⟨hclicked, hlists⟩ := Prod.mk.inj hsame
  refine ⟨u', hu', ?_⟩
  show P u'.clickedMsgId u'.lists
  rw [hclicked, hlists]
  exact hP

theorem remembers_iff {u : UserDispatcher} {issues : List PgdbIssue} :
    Remembers u issues ↔ u.lists = (issues.map fun p => ⟨p.id, p.sentMsgId⟩, issues.map PgdbIssue.sentMsgId, issues) := by
  simp only [UserDispatcher.lists, Prod.mk.injEq]
  exact ⟨fun h => ⟨h.msgs, h.ids, h.pgdbIssues⟩, fun h => ⟨h.2.2, h.1, h.2.1⟩⟩

theorem SameDesk.remembers {issues : List PgdbIssue} {C : Int → Prop} (h : SameDesk me w w')
    (hw : w.Has me fun u => C u.clickedMsgId ∧ Remembers u issues) :
    w'.Has me fun u => C u.clickedMsgId ∧ Remembers u issues := by
  simp only [remembers_iff] at hw ⊢
  exact h.has (P := fun n lists => C n ∧ lists = _) hw

/-- An update that completes leads to where its specification says. -/
theorem after_update {env : UpdateEnv} {x : Update} {Q : World → Prop}
    (h : wp (handleUpdate cfg env x) (fun _ => Q) (fun _ _ => False) w) : Q (final (handleUpdate cfg env x) w) :=
  of_wp (P := fun _ => Q) (wp_mono h (fun _ _ hq => hq) fun _ _ hf => hf.elim)

/-- **A contractor can end every issue he has.** Whatever the history, /start gives him a menu, the menu a list
in which every issue of his has a message, and two clicks under that message archive its card and delete its
rows, but no others; between the four updates may be anything that leaves his list and his last menu alone. -/
theorem issue_can_be_ended (cfg : Config) {w : World} (hnobody : ∀ user, w.session user = none)
    (horder : w.sh.db.ledger.InOrder IssueRow.id) {env₀ env₁ env₂ env₃ : UpdateEnv} (h₀ : env₀.Works)
    (h₁ : env₁.Works) (h₂ : env₂.Works) (h₃ : env₃.Works) (before es₁ : List Deed) (m : Message) {q₁ : CallbackQuery}
    (hq₁ : q₁.Under m.from_.id env₀.command.menuId .myTasks) :
    let w₁ := w.lived cfg (before ++ [.update env₀ (.command .start m)])
    let v₁ := w₁.lived cfg es₁
    SameDesk m.from_.id w₁ v₁ → ∀ r ∈ v₁.sh.db.issues, r.contractorId = itoa m.from_.id →
      let w₂ := v₁.lived cfg [.update env₁ (.callback q₁)]
      ∃ n, ∀ (q₂ q₃ : CallbackQuery) (es₂ es₃ : List Deed),
        q₂.Under m.from_.id n .startSolving → q₃.Under m.from_.id n .taskClosing →
        let v₂ := w₂.lived cfg es₂
        let w₃ := v₂.lived cfg [.update env₂ (.callback q₂)]
        let v₃ := w₃.lived cfg es₃
        SameDesk m.from_.id w₂ v₂ → SameDesk m.from_.id w₃ v₃ →
          let w₄ := v₃.lived cfg [.update env₃ (.callback q₃)]
          w₄.sh.archived = v₃.sh.archived ++ [r.idCard] ∧ w₄.sh.db = v₃.sh.db.deleteIssue r.idCard := by
  intro w₁ v₁ hsame₁ r hr hmine w₂
  have hnone : w.Each fun u => ∃ issues, Remembers u issues := by
    intro b u hu
    rw [hnobody b] at hu
    cases hu
  have hmenu : w₁.Has m.from_.id fun u => u.clickedMsgId = env₀.command.menuId := by
    show World.Has (w.lived cfg (before ++ [_])) _ _
    rw [World.lived_concat]
    exact after_update (start_gives h₀.dispatcher h₀.command)
  have hv₁ : v₁.Has m.from_.id fun u => u.clickedMsgId = q₁.messageId ∧ ∃ issues, Remembers u issues := by
    have hmenu := hsame₁.has (P := fun n _ => n = env₀.command.menuId) hmenu
    obtain ⟨u, hu, hclicked⟩ := hmenu
    have heach : v₁.Each fun u => ∃ issues, Remembers u issues :=
      World.lived_remembers (World.lived_remembers hnone (before ++ [_])) es₁
    exact ⟨u, hu, hclicked.trans hq₁.message.symm, heach _ u hu⟩
  obtain ⟨hfrom, -, hmyTasks⟩ := hq₁
  rw [← hfrom] at hv₁
  have hlist : w₂.Has q₁.from_.id fun u =>
      u.clickedMsgId = 0 ∧ Remembers u (listed env₁.callback.myIssues 0 (myRows env₁.callback.myIssues v₁.sh.db q₁.from_.id)) :=
    after_update (x := .callback q₁) (myTasks_gives h₁.callback.toDelivers h₁.select hmyTasks hv₁)
  rw [hfrom] at hlist
  have hrows : r ∈ myRows env₁.callback.myIssues v₁.sh.db m.from_.id := by
    rw [myRows, if_pos h₁.select]
    exact List.mem_filter.mpr ⟨hr, decide_eq_true hmine⟩
  have hids : ((myRows env₁.callback.myIssues v₁.sh.db m.from_.id).map IssueRow.id).Nodup := by
    have hdistinct : (v₁.sh.db.issues.map IssueRow.id).Nodup :=
      List.pairwise_map.mpr ((World.lived_inOrder (World.lived_inOrder horder _) es₁).increasing.imp ne_of_lt)
    rw [myRows, if_pos h₁.select]
    exact hdistinct.sublist (List.filter_sublist.map IssueRow.id)
  obtain ⟨n, hn, p, hcard, hselects⟩ := listed_finds h₁.callback.toDelivers (h₁.distinct _) hids hrows
  generalize listed env₁.callback.myIssues 0 (myRows env₁.callback.myIssues v₁.sh.db m.from_.id) = issues at hlist hselects
  refine ⟨n, ?_⟩
  intro q₂ q₃ es₂ es₃ hq₂ hq₃ v₂ w₃ v₃ hsame₂ hsame₃ w₄
  obtain ⟨u₂, hu₂, hzero, hremembers₂⟩ := hsame₂.remembers (C := fun k => k = 0) hlist
  obtain ⟨hfrom₂, rfl, hstart⟩ := hq₂
  have hsolving : w₃.Has m.from_.id fun u => u.clickedMsgId ≠ 0 ∧ Remembers u issues := by
    have hlists {c' : Chat} (h : c'.ud.clickedMsgId = q₂.messageId ∧ c'.ud.lists = u₂.lists) :
        c'.ud.clickedMsgId ≠ 0 ∧ Remembers c'.ud issues :=
      ⟨h.1 ▸ hn, remembers_iff.mpr (h.2.trans (remembers_iff.mp hremembers₂))⟩
    rw [← hfrom₂] at hu₂ ⊢
    refine of_wp (P := fun _ w' => World.Has w' q₂.from_.id _) ?_ (m := handleUpdate cfg env₂ (.callback q₂))
    refine wp_issueClick (f := onStartSolving env₂.callback q₂) (.inl rfl) hstart rfl hu₂
      (hselects u₂ hremembers₂) (wp_mono (onStartSolving_takes h₂.callback.toDelivers hzero p) ?_ ?_)
    · exact fun _ c' h w' hat => hat.has (hlists h)
    · exact fun _ c' h w' hat => hat.has (hlists h)
  obtain ⟨u₃, hu₃, hclicked, hremembers₃⟩ := hsame₃.remembers (C := fun k => k ≠ 0) hsolving
  obtain ⟨hfrom₃, hmessage₃, hclosing⟩ := hq₃
  have hselected := hselects u₃ hremembers₃
  rw [← hmessage₃] at hselected
  rw [← hfrom₃] at hu₃
  rw [← hcard]
  refine after_update (x := .callback q₃) (Q := fun w => w.sh.archived = _ ∧ w.sh.db = _) ?_
  refine wp_issueClick (f := onTaskClosing cfg env₃.callback q₃) (.inr rfl) hclosing rfl hu₃ hselected ?_
  refine wp_mono (onTaskClosing_ends h₃.callback hclicked p) ?_ fun _ _ hf => hf.elim
  rintro _ c' ⟨hdb, harchived⟩ w' ⟨-, -, -, hsh⟩
  rw [hsh]
  exact ⟨harchived, hdb⟩

end

theorem listing_works : listing.Works := by
  refine ⟨⟨trivial, trivial, trivial⟩, ⟨trivial, ⟨1, 1⟩, rfl, by decide⟩, ⟨listing_delivers, trivial, rfl⟩, rfl, fun n => ?_⟩
  refine List.nodup_range.map fun i j h => ?_
  have hnumber : (10 + (i : Int)) = 10 + j := h
  omega

/-- 3 ends the issue he was given. -/
theorem issue_can_be_ended_given :
    let start : Message := {messageId := 2, from_ := ⟨3, [], []⟩, chat := ⟨3, []⟩, text := of "/start"}
    let w₁ := filed300.lived {} ([.inspected givenTo3] ++ [.update listing (.command .start start)])
    let w₂ := w₁.lived {} [.update listing (clickUnder 3 1 .myTasks)]
    ∃ n, ∀ q₂ q₃ : CallbackQuery, q₂.Under 3 n .startSolving → q₃.Under 3 n .taskClosing →
      let w₃ := w₂.lived {} [.update listing (.callback q₂)]
      let w₄ := w₃.lived {} [.update listing (.callback q₃)]
      w₄.sh.archived = w₃.sh.archived ++ [of "c1"] ∧ w₄.sh.db = w₃.sh.db.deleteIssue (of "c1") := by
  intro start w₁ w₂
  have horder : filed300.sh.db.ledger.InOrder IssueRow.id := ⟨by decide +kernel, by decide +kernel⟩
  have hrow : ∃ r ∈ w₁.sh.db.issues, r.idCard = of "c1" ∧ r.contractorId = itoa 3 := by decide +kernel
  obtain ⟨r, hr, hcard, hmine⟩ := hrow
  have hmenu : (⟨[], ⟨3, [], []⟩, 1, ⟨3, []⟩, Button.myTasks.data⟩ : CallbackQuery).Under 3 listing.command.menuId .myTasks :=
    ⟨rfl, rfl, by decide⟩
  have hends := issue_can_be_ended {} (fun _ => rfl) horder listing_works listing_works listing_works listing_works
    [.inspected givenTo3] [] start hmenu (.refl 3 w₁) r hr hmine
  rw [hcard] at hends
  obtain ⟨n, hn⟩ := hends
  refine ⟨n, fun q₂ q₃ hq₂ hq₃ => ?_⟩
  have hended := hn q₂ q₃ [] [] hq₂ hq₃
  have hnil (w : World) : w.lived {} [] = w := rfl
  simp only [hnil] at hended
  exact hended (.refl 3 w₂) (.refl 3 _)

end Chanserv
