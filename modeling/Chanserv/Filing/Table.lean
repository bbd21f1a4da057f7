import Chanserv.Bot.Frames
import Chanserv.Filing.Script

/-! What filing a task does to the table of issues: one row, or none. -/
namespace Chanserv
open Text Program

/-- The id of a card Trello has just created, or the empty text where it created none. -/
def NewCard (db : Db) (idCard : Text) : Prop :=
  idCard = [] ∨ idCard ≠ of "1" ∧ ∀ r ∈ db.issues, r.idCard ≠ idCard

/-- The table as it was, or with one more row: that of a task with the card that was created, or
without a card if none was. The list of the session is as it was. -/
structure Filed (env : CreateIssueEnv) (c d : Chat) : Prop where
  list : d.ud.pgdbIssues = c.ud.pgdbIssues
  table : d.sh.table = c.sh.table ∨ ∃ task : NewTask, task.idCard = createdCard env ∧
    d.sh.table = (c.sh.db.issues ++ [{rowOfTask task with id := c.sh.db.nextIssueId}],
      c.sh.db.nextIssueId + 1)

/-- The calls of `create_new_issue` up to the row return, and the row is inserted. -/
structure CreateIssueEnv.Writes (env : CreateIssueEnv) : Prop where
  accepted : env.accepted.Normal
  card : CardSafe env
  insertIssue : env.insertIssue = .returns true

/-- The same, said of the task that is written. -/
structure FiledAs (task : NewTask) (c d : Chat) : Prop where
  list : d.ud.pgdbIssues = c.ud.pgdbIssues
  table : d.sh.table = c.sh.table ∨
    d.sh.table = (c.sh.db.issues ++ [{rowOfTask task with id := c.sh.db.nextIssueId}], c.sh.db.nextIssueId + 1)

section
variable {cfg : Config} {env : CreateIssueEnv} {head : Text} {task : NewTask} {c d d' : Chat}
  {message : Message}

theorem FiledAs.of_listing (h : d.listing = c.listing) : FiledAs task c d :=
  ⟨congrArg Prod.fst h, .inl (congrArg Prod.snd h)⟩

theorem FiledAs.after (h : FiledAs task c d) (h' : d'.listing = d.listing) : FiledAs task c d' := by
  have htable : d'.sh.table = d.sh.table := congrArg Prod.snd h'
  exact ⟨(congrArg Prod.fst h').trans h.list, by rw [htable]; exact h.table⟩

theorem FiledAs.before (h : d.listing = c.listing) (h' : FiledAs task d d') : FiledAs task c d' := by
  have hissues : d.sh.db.issues = c.sh.db.issues := congrArg (fun l => l.2.1) h
  have hnext : d.sh.db.nextIssueId = c.sh.db.nextIssueId := congrArg (fun l => l.2.2) h
  have htable : d.sh.table = c.sh.table := congrArg Prod.snd h
  obtain ⟨hlist, htable'⟩ := h'
  rw [hissues, hnext, htable] at htable'
  exact ⟨hlist.trans (congrArg Prod.fst h), htable'⟩

/-- What leaves the table alone may follow. -/
theorem wp_bind_listing {P : Chat → Prop} {α β : Type} {m : ChatM α} {f : α → ChatM β}
    (hP : ∀ {d d' : Chat}, P d → d'.listing = d.listing → P d') (hm : wp m (fun _ => P) (fun _ => P) d)
    (hf : ∀ a, Frames Chat.listing (f a)) : wp (m >>= f) (fun _ => P) (fun _ => P) d := by
  rw [wp_bind]
  apply wp_mono hm
  · intro a d₁ h₁
    exact wp_mono ((hf a).keeps d₁) (fun _ _ h => hP h₁ h) fun _ _ h => hP h₁ h.2
  · exact fun _ _ h => h

theorem FiledAs.bind {α β : Type} {m : ChatM α} {f : α → ChatM β}
    (hm : wp m (fun _ => FiledAs task c) (fun _ => FiledAs task c) d)
    (hf : ∀ a, Frames Chat.listing (f a)) :
    wp (m >>= f) (fun _ => FiledAs task c) (fun _ => FiledAs task c) d := wp_bind_listing FiledAs.after hm hf

theorem writeIssueToDb_filed :
    wp (service (writeIssueToDb task .issues env)) (fun _ => FiledAs task c) (fun _ _ => False) c := by
  have hsame (sh : Shared) (h : sh.table = c.sh.table) : FiledAs task c {c with sh} :=
    .of_listing (Prod.ext rfl h)
  have hrow (sh : Shared) (h : sh.table =
      (c.sh.db.issues ++ [{rowOfTask task with id := c.sh.db.nextIssueId}], c.sh.db.nextIssueId + 1)) :
      FiledAs task c {c with sh} := ⟨rfl, .inr h⟩
  simp only [wp_service, writeIssueToDb, wp_catching, wp_bind, wp_sql, wp_ite, wp_call, wp_pure]
  constructor
  · intro _
    exact ⟨fun _ => ⟨fun _ _ => hrow _ rfl, fun _ _ => hrow _ rfl⟩, fun hn => absurd trivial hn⟩
  constructor
  · intro _
    exact ⟨fun hn => (by cases hn), fun _ => hsame _ rfl⟩
  · exact fun _ _ => hsame _ rfl

theorem fileRow_filed (htekla : isTekla c.ud.jiraTask = false) :
    wp (fileRow cfg env) (fun _ => FiledAs c.ud.jiraTask c) (fun _ => FiledAs c.ud.jiraTask c) c := by
  have hreport (ok : Bool) (r : Sending) (info : Text) (d : Chat) (hd : FiledAs c.ud.jiraTask c d) :
      wp (guarded (ok = false) (sendTaskToSupport cfg info c.ud.jiraTask .goDashboard r))
        (fun _ sh => FiledAs c.ud.jiraTask c {d with sh}) (fun _ sh => FiledAs c.ud.jiraTask c {d with sh}) d.sh := by
    have hframe : Frames Shared.table
        (guarded (ok = false) (sendTaskToSupport cfg info c.ud.jiraTask .goDashboard r)) := inferInstance
    apply wp_mono (hframe.keeps d.sh)
    · exact fun _ sh h => hd.after (Prod.ext rfl h)
    · exact fun _ sh h => hd.after (Prod.ext rfl h.2)
  have hwrite := @writeIssueToDb_filed env c.ud.jiraTask c
  rw [wp_service] at hwrite
  rw [fileRow, wp_bind, wp_get, wp_service, wp_catching, wp_bind]
  rw [htekla, if_neg Bool.false_ne_true]
  apply wp_mono hwrite
  · intro ok sh h
    apply wp_mono (hreport ok env.rowReport _ ⟨c.ud, sh⟩ h)
    · exact fun _ _ h => h
    · intro stop sh' h'
      cases stop with
      | throws e =>
        have hagain := hreport false env.rowThrewReport (of "Ошибка записи в базу данных PostgreSQL.")
          ⟨c.ud, sh'⟩ h'
        rw [wp_guarded] at hagain
        exact hagain.1 rfl
      | _ => exact h'
  · exact fun _ _ h => h.elim

theorem fileOnBoard_filed (htekla : isTekla c.ud.jiraTask = false) (hid : c.ud.createdCardId = []) :
    wp (fileOnBoard cfg env head) (fun _ => FiledAs (withCard env c.ud).jiraTask c)
      (fun _ => FiledAs (withCard env c.ud).jiraTask c) c := by
  have hframe : Frames Chat.listing (fileCard cfg env head) := inferInstance
  rw [fileOnBoard, wp_bind]
  apply wp_mono (wp_and (fileCard_files hid) (hframe.keeps c))
  · rintro _ d ⟨⟨-, -, hud⟩, hlisting⟩
    have htekla' : isTekla d.ud.jiraTask = false := by
      rw [hud]
      exact htekla
    have hrow := @fileRow_filed cfg env d htekla'
    rw [hud] at hrow
    have hrow' : wp (fileRow cfg env) (fun _ => FiledAs (withCard env c.ud).jiraTask c)
        (fun _ => FiledAs (withCard env c.ud).jiraTask c) d :=
      wp_mono hrow (fun _ _ h => .before hlisting h) fun _ _ h => .before hlisting h
    exact FiledAs.bind hrow' fun _ => inferInstance
  · rintro _ d ⟨-, hlisting⟩
    exact .of_listing hlisting.2

theorem prepared_filed (hid : c.ud.createdCardId = []) :
    wp (do
      guarded (isTekla c.ud.jiraTask = false) (fileOnBoard cfg env head)
      thankUser cfg env message
      fileInJira cfg env head) (fun _ => FiledAs (withCard env c.ud).jiraTask c)
      (fun _ => FiledAs (withCard env c.ud).jiraTask c) c := by
  apply FiledAs.bind
  · rw [wp_guarded]
    exact ⟨fun htekla => fileOnBoard_filed htekla hid, fun _ => .of_listing rfl⟩
  · exact fun _ => inferInstance

/-- A call of `create_new_issue` adds at most one row, that of its task. -/
theorem createNewIssue_filedAs (cfg : Config) (env : CreateIssueEnv) (message : Message) (c : Chat) :
    wp (createNewIssue cfg env message) (fun _ => FiledAs (withCard env (prepared env c.ud)).jiraTask c)
      (fun _ => FiledAs (withCard env (prepared env c.ud)).jiraTask c) c := by
  let e := Effect.sendMessage (.user message.chat.id) (of "Записано. Отправляем задачу в БД...")
  let d : Chat := ⟨prepared env c.ud, (c.sh.log (.createNewIssue c.ud.jiraTask)).log e⟩
  have hsame : d.listing = c.listing := rfl
  have hsubmit : wp (submitTask cfg env message) (fun _ => FiledAs (withCard env (prepared env c.ud)).jiraTask c)
      (fun _ => FiledAs (withCard env (prepared env c.ud)).jiraTask c)
      ⟨c.ud, c.sh.log (.createNewIssue c.ud.jiraTask)⟩ := by
    rw [submitTask, wp_bind, wp_service, wp_call]
    constructor
    · intro _ _
      rw [wp_bind, wp_modifyTask, wp_bind, wp_get, wp_bind, wp_modifySession]
      have hrest := @prepared_filed cfg env (cardDescription message.chat.username c.ud.jiraTask) d message rfl
      exact wp_mono hrest (fun _ _ h => .before hsame h) fun _ _ h => .before hsame h
    · exact fun _ _ => .of_listing rfl
  rw [createNewIssue, wp_bind, wp_get, wp_bind, wp_service, wp_log]
  exact FiledAs.bind hsubmit fun _ => inferInstance

theorem writeIssueToDb_unwritten {table : IssueTable} (h : env.insertIssue ≠ .returns true) :
    Frames Shared.table (writeIssueToDb task table env) := by
  have hinsert : Frames Shared.table (sql (.insertIssue table (rowOfTask task)) env.insertIssue fun db =>
      db.insertIssue table (rowOfTask task)) := by
    refine ⟨fun sh => ?_⟩
    rw [wp_sql]
    exact ⟨fun hn => absurd hn h, fun _ => rfl, fun _ _ => ⟨trivial, rfl⟩⟩
  unfold writeIssueToDb
  infer_instance

/-- A row is written only if the calls before it return, and for no task of Tekla. -/
theorem createNewIssue_unwritten (h : ¬(env.Writes ∧ isTekla c.ud.jiraTask = false)) :
    wp (createNewIssue cfg env message) (fun _ d => d.listing = c.listing) (fun _ d => d.listing = c.listing) c := by
  have hboard {head : Text} {d : Chat} (hd : d.listing = c.listing) (hid : d.ud.createdCardId = [])
      (hunwritten : ¬CardSafe env ∨ env.insertIssue ≠ .returns true) :
      wp (fileOnBoard cfg env head) (fun _ d => d.listing = c.listing) (fun _ d => d.listing = c.listing) d := by
    rcases hunwritten with hcard | hinsert
    · have hframe : Frames Chat.listing (fileCard cfg env head) := inferInstance
      rw [fileOnBoard, wp_bind]
      apply wp_mono (wp_and (fileCard_files hid) (hframe.keeps d))
      · exact fun _ _ h => absurd h.1.1 hcard
      · exact fun _ _ h => h.2.2.trans hd
    · have hwrite {task : NewTask} {table : IssueTable} := @writeIssueToDb_unwritten env task table hinsert
      have hframe : Frames Chat.listing (fileOnBoard cfg env head) := by
        unfold fileOnBoard fileRow
        infer_instance
      exact wp_mono (hframe.keeps d) (fun _ _ h => h.trans hd) fun _ _ h => h.2.trans hd
  rw [createNewIssue, wp_bind, wp_get, wp_bind, wp_service, wp_log]
  refine wp_bind_listing (fun hd h => h.trans hd) ?_ fun _ => inferInstance
  rw [submitTask, wp_bind, wp_service, wp_call]
  refine ⟨fun _ haccepted => ?_, fun _ _ => rfl⟩
  rw [wp_bind, wp_modifyTask, wp_bind, wp_get, wp_bind, wp_modifySession]
  refine wp_bind_listing (fun hd h => h.trans hd) ?_ fun _ => inferInstance
  rw [wp_guarded]
  refine ⟨fun htekla => hboard rfl rfl ?_, fun _ => rfl⟩
  by_contra hsafe
  rw [not_or, not_not, not_not] at hsafe
  exact h ⟨⟨by rw [haccepted]; trivial, hsafe.1, hsafe.2⟩, htekla⟩

/-- The row has the card that was created. -/
theorem createNewIssue_filed (cfg : Config) (env : CreateIssueEnv) (message : Message) (c : Chat) :
    wp (createNewIssue cfg env message) (fun _ => Filed env c) (fun _ => Filed env c) c := by
  have hfiled {d : Chat} (h : FiledAs (withCard env (prepared env c.ud)).jiraTask c d) : Filed env c d :=
    ⟨h.list, h.table.imp id fun htable => ⟨_, rfl, htable⟩⟩
  exact wp_mono (createNewIssue_filedAs cfg env message c) (fun _ _ => hfiled) fun _ _ => hfiled

end

end Chanserv
