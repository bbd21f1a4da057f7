import Chanserv.Bot.Assignee
import Chanserv.Bot.Listing

/-! Which issue a click selects.

`get_selected_issue_id` goes through three vectors: the number of a message gives an
index, the index a row, the row an issue. As long as they are filled by one loop, with
rows and messages that have numbers of their own, this ends at the issue the message
shows. In a run of the bot nothing else touches them. -/
namespace Chanserv
open Text Program

/-- A session, the rows its last list was made of, and the issues whose messages went out. -/
inductive Session (cfg : Config) : UserDispatcher → List IssueRow → List PgdbIssue → Prop
  | created {u : UserDispatcher} (h : Remembers u []) : Session cfg u [] []
  /-- `get_my_issues`, over any table, to its end or to a call that fails. -/
  | asked {u : UserDispatcher} {rows : List IssueRow} {issues : List PgdbIssue} (h : Session cfg u rows issues)
      {env : MyIssuesEnv} (receiver : Int) {sh : Shared} (hselect : env.selectIssues.Normal)
      (hrows : ((myRows env sh.db receiver).map IssueRow.id).Nodup)
      (hmsgs : ((listed env 0 (myRows env sh.db receiver)).map PgdbIssue.sentMsgId).Nodup) :
      Session cfg (final (showMyIssues cfg env receiver) ⟨u, sh⟩).ud (myRows env sh.db receiver)
        (listed env 0 (myRows env sh.db receiver))
  /-- Everything else. -/
  | other {u u' : UserDispatcher} {rows : List IssueRow} {issues : List PgdbIssue}
      (h : Session cfg u rows issues) (hissues : u'.pgdbIssues = u.pgdbIssues)
      (hmsgs : u'.recentMsgs = u.recentMsgs) (hids : u'.recentMsgIds = u.recentMsgIds) :
      Session cfg u' rows issues

/-- The issues of a list are those of its first rows, in their order. -/
structure Lists (rows : List IssueRow) (issues : List PgdbIssue) : Prop where
  ids : (issues.map PgdbIssue.id).Nodup
  msgs : (issues.map PgdbIssue.sentMsgId).Nodup
  own : ∀ (k : Nat) (issue : PgdbIssue), issues[k]? = some issue →
    ∃ row sent, rows[k]? = some row ∧ issue = (issueOfRow (k + 1) row).sentAs sent

section
variable {cfg : Config} {env : MyIssuesEnv} {u : UserDispatcher} {rows : List IssueRow} {issues : List PgdbIssue}

theorem listed_ids (env : MyIssuesEnv) (i : Nat) (rows : List IssueRow) :
    (listed env i rows).map PgdbIssue.id <+: rows.map IssueRow.id := by
  induction rows generalizing i with
  | nil => exact List.nil_prefix
  | cons row rows ih =>
    cases hshow : env.show_ i with
    | returns sent =>
      rw [listed_sent hshow]
      exact (List.prefix_cons_inj row.id).mpr (ih (i + 1))
    | throws x =>
      rw [listed_failed hshow]
      exact List.nil_prefix

theorem listed_own (env : MyIssuesEnv) (i : Nat) (rows : List IssueRow) (k : Nat) (issue : PgdbIssue)
    (h : (listed env i rows)[k]? = some issue) :
    ∃ row sent, rows[k]? = some row ∧ issue = (issueOfRow (i + k + 1) row).sentAs sent := by
  induction rows generalizing i k with
  | nil => cases h
  | cons row rows ih =>
    cases hshow : env.show_ i with
    | returns sent =>
      rw [listed_sent hshow] at h
      cases k with
      | zero => exact ⟨row, sent, rfl, (Option.some.inj h).symm⟩
      | succ k =>
        obtain ⟨row', sent', hrow, hissue⟩ := ih (i + 1) k h
        rw [Nat.add_assoc i 1 k, Nat.add_comm 1 k] at hissue
        exact ⟨row', sent', hrow, hissue⟩
    | throws x =>
      rw [listed_failed hshow] at h
      cases h

/-- The vectors agree in every session, and know their rows. -/
theorem Session.remembers (h : Session cfg u rows issues) : Remembers u issues ∧ Lists rows issues := by
  induction h with
  | created h => exact ⟨h, List.nodup_nil, List.nodup_nil, fun _ _ h => by cases h⟩
  | @asked u _ _ _ env receiver sh hselect hrows hmsgs ih =>
    have hends : wp (showMyIssues cfg env receiver) (fun _ c' => Remembers c'.ud (listed env 0 (myRows env sh.db receiver)))
        (fun _ c' => Remembers c'.ud (listed env 0 (myRows env sh.db receiver))) ⟨u, sh⟩ := by
      refine wp_mono showMyIssues_remembers (fun _ _ h => h.2.2) fun _ _ h => ?_
      rcases h with ⟨hthrows, -⟩ | ⟨-, h⟩
      · exact absurd hselect hthrows
      · exact h
    have hshown := of_wp (P := fun _ (c' : Chat) => Remembers c'.ud (listed env 0 (myRows env sh.db receiver))) hends
    refine ⟨hshown, hrows.sublist (listed_ids env 0 _).sublist, hmsgs, fun k issue hissue => ?_⟩
    have hown := listed_own env 0 _ k issue hissue
    rwa [Nat.zero_add] at hown
  | other h hissues hmsgs hids ih =>
    obtain ⟨hsame, hlists⟩ := ih
    exact ⟨⟨hissues.trans hsame.pgdbIssues, hmsgs.trans hsame.msgs, hids.trans hsame.ids⟩, hlists⟩

/-- Where the ids are different, an issue is found by its own. -/
theorem find_own {p : PgdbIssue} (hnodup : (issues.map PgdbIssue.id).Nodup) (hp : p ∈ issues) :
    issues.find? (fun issue => issue.id = p.id) = some p := by
  have hfound : (issues.find? fun issue => issue.id = p.id).isSome := by
    rw [List.find?_isSome]
    exact ⟨p, hp, decide_eq_true rfl⟩
  obtain ⟨q, hq⟩ := Option.isSome_iff_exists.mp hfound
  have hid : q.id = p.id := of_decide_eq_true (List.find?_some (p := fun issue : PgdbIssue => decide (issue.id = p.id)) hq)
  rw [hq, List.inj_on_of_nodup_map hnodup (List.mem_of_find?_eq_some hq) hp hid]

theorem Remembers.selected (h : Remembers u issues) (hids : (issues.map PgdbIssue.id).Nodup) (m : Int) :
    (m ∉ issues.map PgdbIssue.sentMsgId ∧
      getSelectedIssueId m u.pgdbIssues u.recentMsgIds u.recentMsgs = some none) ∨
    ∃ p ∈ issues, p.sentMsgId = m ∧
      getSelectedIssueId m u.pgdbIssues u.recentMsgIds u.recentMsgs = some (some p) := by
  rw [h.pgdbIssues, h.msgs, h.ids, getSelectedIssueId]
  cases hidx : (issues.map PgdbIssue.sentMsgId).idxOf? m with
  | none => exact .inl ⟨List.idxOf?_eq_none_iff.mp hidx, rfl⟩
  | some k =>
    obtain ⟨hk, hm, -⟩ := List.idxOf?_eq_some_iff.mp hidx
    rw [List.length_map] at hk
    rw [List.getElem_map] at hm
    refine .inr ⟨issues[k], List.getElem_mem hk, hm, ?_⟩
    simp only [List.getElem?_map, List.getElem?_eq_getElem hk, Option.map_some]
    rw [find_own hids (List.getElem_mem hk)]

/-- **The clicked message selects its own issue.** -/
theorem click_selects_own (h : Session cfg u rows issues) :
    (u.recentMsgs.length = u.pgdbIssues.length ∧ u.recentMsgIds.length = u.pgdbIssues.length) ∧
    (∀ (k : Nat) (issue : PgdbIssue), u.pgdbIssues[k]? = some issue →
      u.recentMsgs[k]? = some ⟨issue.id, issue.sentMsgId⟩ ∧ u.recentMsgIds[k]? = some issue.sentMsgId) ∧
    (∀ (m : Int) (issue : PgdbIssue), getSelectedIssueId m u.pgdbIssues u.recentMsgIds u.recentMsgs = some (some issue) ↔
      issue ∈ issues ∧ issue.sentMsgId = m) ∧
    (∀ m, getSelectedIssueId m u.pgdbIssues u.recentMsgIds u.recentMsgs = some none ↔
      ∀ issue ∈ issues, issue.sentMsgId ≠ m) ∧
    ∀ (k : Nat) (issue : PgdbIssue), issues[k]? = some issue →
      ∃ row sent, rows[k]? = some row ∧ issue = (issueOfRow (k + 1) row).sentAs sent := by
  obtain ⟨hremembers, hids, hmsgs, hown⟩ := h.remembers
  have hselected := hremembers.selected hids
  refine ⟨⟨?_, ?_⟩, fun k issue hissue => ?_, fun m issue => ?_, fun m => ?_, hown⟩
  · rw [hremembers.msgs, hremembers.pgdbIssues, List.length_map]
  · rw [hremembers.ids, hremembers.pgdbIssues, List.length_map]
  · rw [hremembers.pgdbIssues] at hissue
    rw [hremembers.msgs, hremembers.ids, List.getElem?_map, List.getElem?_map, hissue]
    exact ⟨rfl, rfl⟩
  · rcases hselected m with ⟨hnot, hnone⟩ | ⟨p, hp, hm, hsome⟩
    · rw [hnone]
      refine ⟨fun h => absurd h (by simp), fun ⟨hissue, hm⟩ => absurd ?_ hnot⟩
      exact hm ▸ List.mem_map_of_mem hissue
    · rw [hsome, Option.some.injEq, Option.some.injEq]
      refine ⟨fun heq => heq ▸ ⟨hp, hm⟩, fun ⟨hissue, hm'⟩ => ?_⟩
      exact List.inj_on_of_nodup_map hmsgs hp hissue (hm.trans hm'.symm)
  · rcases hselected m with ⟨hnot, hnone⟩ | ⟨p, hp, hm, hsome⟩
    · rw [hnone]
      exact ⟨fun _ issue hissue hm => hnot (hm ▸ List.mem_map_of_mem hissue), fun _ => rfl⟩
    · rw [hsome]
      exact ⟨fun h => absurd h (by simp), fun h => absurd hm (h p hp)⟩

end

/-- A row of the contractor 3. -/
def rowOf3 (id : Int) (photos : String) : IssueRow := {id, contractorId := of "3", photos := of photos}

/-- The second list has an issue of the first, and one without photos between two that have them. -/
theorem click_selects_own_twice :
    let first : Db := {issues := [rowOf3 10 "a\\nb\\n", rowOf3 11 ""]}
    let second : Db := {issues := [rowOf3 12 "c\\n", rowOf3 13 "", rowOf3 10 "a\\nb\\n"]}
    let u := (final (showMyIssues {} (.from_ 100) 3) ⟨newcomer3, {db := first}⟩).ud
    let u' := (final (showMyIssues {} (.from_ 200) 3) ⟨u, {db := second}⟩).ud
    ∀ m issue, getSelectedIssueId m u'.pgdbIssues u'.recentMsgIds u'.recentMsgs = some (some issue) ↔
      issue ∈ listed (.from_ 200) 0 (myRows (.from_ 200) second 3) ∧ issue.sentMsgId = m := by
  intro first second u u'
  have hnew : Session {} newcomer3 [] [] := .created ⟨rfl, rfl, rfl⟩
  have hfirst : Session {} u (myRows (.from_ 100) first 3) (listed (.from_ 100) 0 (myRows (.from_ 100) first 3)) :=
    hnew.asked 3 trivial (by decide +kernel) (by decide +kernel)
  have hsecond : Session {} u' (myRows (.from_ 200) second 3) (listed (.from_ 200) 0 (myRows (.from_ 200) second 3)) :=
    hfirst.asked 3 trivial (by decide +kernel) (by decide +kernel)
  exact (click_selects_own hsecond).2.2.1

/-! ### Runs -/

/-- The session is one that lists and other updates lead to. -/
def Selects (cfg : Config) (u : UserDispatcher) : Prop := ∃ rows issues, Session cfg u rows issues

def World.Select (cfg : Config) (w : World) : Prop := ∀ b u, w.session b = some u → Selects cfg u

/-- All sessions are such. -/
def World.Each (P : UserDispatcher → Prop) (w : World) : Prop := ∀ b u, w.session b = some u → P u

/-- Rows and messages of a list have numbers of their own. -/
structure MyIssuesEnv.Distinct (env : MyIssuesEnv) (db : Db) (receiver : Int) : Prop where
  rows : ((myRows env db receiver).map IssueRow.id).Nodup
  msgs : ((listed env 0 (myRows env db receiver)).map PgdbIssue.sentMsgId).Nodup

section
variable {cfg : Config} {env : UpdateEnv} {x : Update} {q : CallbackQuery} {me : Int} {c : Chat} {u : UserDispatcher}
  {w w' : World} {S : Shared → Shared → Prop}

theorem Selects.same {u' : UserDispatcher} (h : Selects cfg u) (hlists : u'.lists = u.lists) : Selects cfg u' := by
  obtain ⟨rows, issues, h⟩ := h
  simp only [UserDispatcher.lists, Prod.mk.injEq] at hlists
  exact ⟨rows, issues, h.other hlists.2.2 hlists.1 hlists.2.1⟩

theorem World.Select.kept (h : w.Select cfg) (hkept : KeptLists S w w') : w'.Select cfg := by
  intro b u' hu'
  rcases hkept.1 b u' hu' with hempty | ⟨u, hu, hsame⟩
  · simp only [UserDispatcher.lists, Prod.mk.injEq] at hempty
    exact ⟨[], [], .created ⟨hempty.2.2, hempty.1, hempty.2.1⟩⟩
  · exact (h b u hu).same hsame

theorem World.Each.at {P : UserDispatcher → Prop} (h : w.Each P) (hat : w'.At me c) (ho : OthersKept me w w')
    (hc : P c.ud) : w'.Each P := by
  intro b v hv
  by_cases hme : b = me
  · subst hme
    rw [hat.session, Option.some.injEq] at hv
    exact hv ▸ hc
  · rw [ho.session hme] at hv
    exact h b v hv

theorem showMyIssues_selects {ienv : MyIssuesEnv} (hdistinct : ienv.Distinct c.sh.db me) (hc : Selects cfg c.ud) :
    wp (showMyIssues cfg ienv me) (fun _ c' => Selects cfg c'.ud) (fun _ c' => Selects cfg c'.ud) c := by
  obtain ⟨rows, issues, hsession⟩ := hc
  have hasked (hselect : ienv.selectIssues.Normal) {c' : Chat} (hfinal : final (showMyIssues cfg ienv me) c = c') :
      Selects cfg c'.ud := by
    rw [← hfinal]
    exact ⟨_, _, hsession.asked me hselect hdistinct.rows hdistinct.msgs⟩
  refine wp_mono (wp_run showMyIssues_remembers) (fun _ c' h => ?_) fun stop c' h => ?_
  · exact hasked h.2.1 (final_of_ok h.1)
  · rcases h.2 with ⟨-, hud⟩ | ⟨hselect, -⟩
    · exact ⟨rows, issues, hud ▸ hsession⟩
    · exact hasked hselect (by simp only [final, h.1])

/-- A click on `my_tasks` keeps what the lists of a session alone decide, if a list that is shown keeps it. -/
theorem myTasks_keeps {P : UserDispatcher → Prop} {env : CallbackEnv} {now : Int} (hb : buttonOf q.data = some .myTasks)
    (hP : ∀ u u' : UserDispatcher, u'.lists = u.lists → P u → P u')
    (hshow : ∀ c : Chat, c.sh.db = w.sh.db → P c.ud → wp (showMyIssues cfg env.myIssues q.from_.id)
      (fun _ c' => P c'.ud) (fun _ c' => P c'.ud) c) (hw : w.Each P) :
    wp (onCallbackQuery cfg env q now) (fun _ w' => w'.Each P) (fun _ w' => w'.Each P) w := by
  have hdata : q.data = Button.myTasks.data := data_of_buttonOf hb
  have hkey : ¬(isApprove q.data ∨ isReject q.data) := by
    rw [hdata]
    decide
  refine wp_ownClick hkey (fun _ => hw) ?_
  rw [ownCallback]
  refine wp_inSession _ _ (fun _ => hw) fun u hu w₂ hat₂ ho₂ => ?_
  have hu₂ : P ((⟨u, w.sh⟩ : Chat).touch now).ud := hP u _ rfl (hw _ u hu)
  rw [wp_bind]
  refine wp_onSession hat₂ (wp_mono clickedIssue_listed ?_ ?_)
  · rintro issue c₃ ⟨rfl, -⟩ w₃ hat₃ ho₃
    rw [hb]
    show wp (onMyTasks cfg env q now) _ _ w₃
    have hmenu : Stays (SameLists FewerRows) (spendMenu q id) := inferInstance
    rw [onMyTasks, wp_bind]
    refine wp_onSession hat₃ (wp_mono (wp_and (hmenu.within _) (spendMenu_issues id)) ?_ fun _ _ hf => hf.2.elim)
    rintro spent c₄ ⟨⟨hlists₄, -⟩, -, hsh₄, -⟩ w₄ hat₄ ho₄
    have hu₄ : P c₄.ud := hP _ _ hlists₄ hu₂
    have ho := ho₂.trans (ho₃.trans ho₄)
    rw [wp_guarded]
    constructor
    · intro _
      rw [wp_inThread, getMyIssues]
      refine wp_ownSession hat₄ now fun w₅ hat₅ ho₅ => ?_
      have hdb : (c₄.touch now).sh.db = w.sh.db := congrArg Shared.db hsh₄
      refine wp_onSession hat₅ (wp_mono (hshow (c₄.touch now) hdb (hP c₄.ud _ rfl hu₄)) ?_ ?_)
      · intro _ c₆ h₆ w₆ hat₆ ho₆
        exact hw.at hat₆ (ho.trans (ho₅.trans ho₆)) h₆
      · intro stop c₆ h₆ w₆ hat₆ ho₆
        cases stop <;> exact hw.at hat₆ (ho.trans (ho₅.trans ho₆)) h₆
    · intro _
      exact hw.at hat₄ ho hu₄
  · rintro _ c₃ rfl w₃ hat₃ ho₃
    exact hw.at hat₃ (ho₂.trans ho₃) hu₂

theorem myTasks_select {env : CallbackEnv} {now : Int} (hb : buttonOf q.data = some .myTasks)
    (hdistinct : env.myIssues.Distinct w.sh.db q.from_.id) (hw : w.Select cfg) :
    wp (onCallbackQuery cfg env q now) (fun _ w' => w'.Select cfg) (fun _ w' => w'.Select cfg) w :=
  myTasks_keeps hb (fun _ _ hlists h => h.same hlists)
    (fun _ hdb h => showMyIssues_selects (hdb ▸ hdistinct) h) hw

/-- An update in which a list, if it asks for one, has rows and messages with numbers of their own. -/
theorem World.Select.update (hw : w.Select cfg)
    (hdistinct : ∀ q, x = .callback q → buttonOf q.data = some .myTasks →
      env.callback.myIssues.Distinct w.sh.db q.from_.id) : (final (handleUpdate cfg env x) w).Select cfg := by
  have hkept {S : Shared → Shared → Prop} (hstays : Stays (KeptLists S) (handleUpdate cfg env x)) :
      (final (handleUpdate cfg env x) w).Select cfg :=
    hw.kept (of_wp (P := fun _ => KeptLists S w) (hstays.within w))
  cases x with
  | callback q =>
    by_cases hb : buttonOf q.data = some .myTasks
    · exact of_wp (P := fun _ (w' : World) => w'.Select cfg) (myTasks_select hb (hdistinct q rfl hb) hw)
    · exact hkept (S := FewerRows) (onCallbackQuery_stays hb)
  | command name m => exact hkept (S := Anything) (handleUpdate_stays fun _ => by simp)
  | message m => exact hkept (S := Anything) (handleUpdate_stays fun _ => by simp)

/-- Every session of a run is one that a click selects its own issue in. -/
theorem Run.selects {hist : List Handled} (hr : Run cfg hist w)
    (hdistinct : ∀ h ∈ hist, ∀ q, h.x = .callback q → buttonOf q.data = some .myTasks →
      h.env.callback.myIssues.Distinct h.before.sh.db q.from_.id) : w.Select cfg := by
  induction hr with
  | start =>
    intro b u hu
    cases hu
  | @update hist w hr env x _ ih =>
    rw [List.forall_mem_append] at hdistinct
    exact (ih hdistinct.1).update fun q hq hb => hdistinct.2 _ (List.mem_singleton_self _) q hq hb
  | task _ env task _ ih =>
    have hstays : Stays (KeptLists FewerRows) (serviceBot (runTask cfg env task)) := by
      have htask : Stays FewerRows (runTask cfg env task) := runTask_stays env task
      infer_instance
    exact (ih hdistinct).kept (of_wp (P := fun _ => KeptLists FewerRows _) (hstays.within _))
  | queued _ _ ih | tables _ _ ih => exact ih hdistinct

end

end Chanserv
