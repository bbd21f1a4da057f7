import Chanserv.Bot.FiledRows
import Chanserv.Checker.Tables
import Chanserv.Program.Numbered

/-! The table of issues as a ledger.

The table numbers its rows. The bot writes rows of nobody yet at its end and
deletes rows, the checker rewrites and deletes rows; neither touches the number,
the card or the texts of a row, and a number is never given twice. -/
namespace Chanserv
open Text Program

/-- The rows, and the number the next row gets. -/
def Db.ledger (db : Db) : Numbered IssueRow := ⟨db.issues, db.nextIssueId⟩

/-- What nobody changes about an issue: whose it is, its card and its texts. -/
def IssueRow.origin (r : IssueRow) : List Text := r.consumerId :: r.idCard :: r.texts

/-- The tables before and after are connected by steps of the ledger; rows are rewritten by these
functions only. -/
def Books (edit : (IssueRow → IssueRow) → Prop) (s s' : Shared) : Prop :=
  Numbered.Leads IssueRow.id IssueRow.Free edit s.db.ledger s'.db.ledger

/-- The bot rewrites no row. -/
def NoEdit (_ : IssueRow → IssueRow) : Prop := False

/-- The checker rewrites the rows of a card. -/
def CardEdit (f : IssueRow → IssueRow) : Prop :=
  ∃ idCard g, Updating (fun _ => True) g ∧ f = fun r => if r.idCard = idCard then g r else r

/-! ### Programs on the ledger -/

section
variable {edit : (IssueRow → IssueRow) → Prop}

instance : Std.Refl (Books edit) := ⟨fun _ => Relation.ReflTransGen.refl⟩

instance : IsTrans Shared (Books edit) := ⟨fun _ _ _ => Relation.ReflTransGen.trans⟩

theorem Books.of_table {s s' : Shared} (h : s'.table = s.table) : Books edit s s' := by
  have hledger : s'.db.ledger = s.db.ledger := by
    rw [Db.ledger, Db.ledger, show s'.db.issues = _ from congrArg Prod.fst h,
      show s'.db.nextIssueId = _ from congrArg Prod.snd h]
    rfl
  rw [Books, hledger]
  exact Relation.ReflTransGen.refl

instance : OfTable (Books edit) := ⟨Books.of_table⟩

instance : OfDeletes (Books edit) := ⟨fun _ _ => .single (.deletes _)⟩

/-- A task that is filed is a row of nobody yet. -/
theorem FiledAs.books {task : NewTask} {c d : Chat} (h : FiledAs task c d) : Books edit c.sh d.sh := by
  rcases h.table with hsame | hnew
  · exact .of_table hsame
  · have hledger : d.sh.db.ledger = ⟨c.sh.db.ledger.rows ++ [{rowOfTask task with id := c.sh.db.nextIssueId}],
        c.sh.db.ledger.next + 1⟩ := by
      rw [Db.ledger, show d.sh.db.issues = _ from congrArg Prod.fst hnew,
        show d.sh.db.nextIssueId = _ from congrArg Prod.snd hnew]
      rfl
    rw [Books, hledger]
    exact .single (.file ⟨rfl, rfl, rfl, rfl, rfl⟩ rfl)

end

/-! ### The bot -/

section
variable (S : Shared → Shared → Prop)

/-- About what all sessions share only. -/
def OnChat (c c' : Chat) : Prop := S c.sh c'.sh

def OnWorld (w w' : World) : Prop := S w.sh w'.sh

/-- A task may be filed. -/
class OfFilings : Prop where
  file : ∀ (cfg : Config) (env : CreateIssueEnv) (m : Message), Stays (OnChat S) (createNewIssue cfg env m)

variable {S} {α : Type}

theorem OfFilings.of_filedAs (h : ∀ {task : NewTask} {c d : Chat}, FiledAs task c d → S c.sh d.sh) : OfFilings S where
  file cfg env m := ⟨fun c => wp_mono (createNewIssue_filedAs cfg env m c) (fun _ _ hd => h hd) fun _ _ hd => h hd⟩

instance {edit : (IssueRow → IssueRow) → Prop} : OfFilings (Books edit) := .of_filedAs FiledAs.books

instance [h : Std.Refl S] : Std.Refl (OnChat S) := ⟨fun c => h.refl c.sh⟩

instance [h : IsTrans Shared S] : IsTrans Chat (OnChat S) := ⟨fun _ _ _ => h.trans _ _ _⟩

instance [h : Std.Refl S] : Std.Refl (OnWorld S) := ⟨fun w => h.refl w.sh⟩

instance [h : IsTrans Shared S] : IsTrans World (OnWorld S) := ⟨fun _ _ _ => h.trans _ _ _⟩

instance {m : ServiceM α} [hm : Stays S m] : Stays (OnChat S) (service m) := ⟨hm.within.zoom fun _ _ hs => hs⟩

instance [h : Std.Refl S] (f : UserDispatcher → UserDispatcher) : Stays (OnChat S) (modifySession f) :=
  ⟨.writes fun c => h.refl c.sh⟩

theorem Stays.onChat {m : ChatM α} [hm : Stays (SameLists S) m] : Stays (OnChat S) m :=
  ⟨fun c => wp_mono (hm.within c) (fun _ _ h => h.2) fun _ _ h => h.2⟩

theorem Stays.onWorld {m : BotM α} [hm : Stays (KeptLists S) m] : Stays (OnWorld S) m :=
  ⟨fun w => wp_mono (hm.within w) (fun _ _ h => h.2) fun _ _ h => h.2⟩

instance [h : Std.Refl S] {m : ChatM α} [hm : Stays (OnChat S) m] : Stays (OnWorld S) (onSession m) where
  within w := by
    have hrun := hm.within
    unfold wp
    rw [run_onSession]
    cases w.current with
    | none => exact h.refl w.sh
    | some found =>
      have hchat := hrun ⟨found.2, w.sh⟩
      unfold wp at hchat
      dsimp only
      cases hm : m.run ⟨found.2, w.sh⟩ <;> rw [hm] at hchat <;> exact hchat

variable [Std.Refl S] [IsTrans Shared S] [OfRegisters S]

omit [IsTrans Shared S] [OfRegisters S] in
instance (f : NewTask → NewTask) : Stays (OnChat S) (modifyTask f) := by
  unfold modifyTask
  infer_instance

instance (cfg : Config) (env : MyIssuesEnv) (receiver : Int) (rows : List IssueRow) :
    Stays (OnChat S) (showRows cfg env receiver rows) := by
  unfold showRows
  refine Stays.bind inferInstance fun _ => Stays.bind ⟨.forEach fun x _ => ?_⟩ fun _ => inferInstance
  obtain ⟨row, i⟩ := x
  exact Stays.within

/-- A list that is shown changes no table. -/
instance (cfg : Config) (env : CallbackEnv) (q : CallbackQuery) (now : Int) :
    Stays (OnWorld S) (onMyTasks cfg env q now) := by
  have hspend : Stays (OnChat S) (spendMenu q id) := by
    unfold spendMenu
    infer_instance
  have hselect : Stays (OnWorld S) (selectSession now q.from_.id) := Stays.onWorld
  unfold onMyTasks getMyIssues showMyIssues
  infer_instance

end

section
variable {S : Shared → Shared → Prop} [Std.Refl S] [IsTrans Shared S] [OfRegisters S] {cfg : Config}

/-- A message files at most the task of its user. -/
theorem handleSmallTalk_onWorld [hfilings : OfFilings S] (env : SmallTalkEnv) (m : Message) (now : Int) :
    Stays (OnWorld S) (handleSmallTalk cfg env m now) := by
  have hselect : Stays (OnWorld S) (selectSession now m.from_.id) := Stays.onWorld
  have hfiles : Stays (SameLists S) (createNewIssue cfg env.createIssue m) := by
    have hlists : Stays (SameLists Anything) (createNewIssue cfg env.createIssue m) := inferInstance
    have htable := hfilings.file cfg env.createIssue m
    refine ⟨fun c => wp_mono (wp_and (hlists.within c) (htable.within c)) ?_ ?_⟩
    · exact fun _ _ h => ⟨h.1.1, h.2⟩
    · exact fun _ _ h => ⟨h.1.1, h.2⟩
  have hstep (stat : Nat) : Stays (OnChat S) (answerStep cfg env m stat) := by
    have hkept := answerStep_stays (S := S) cfg env m (fun _ : stat = _ ∨ _ => hfiles)
    exact Stays.onChat
  unfold handleSmallTalk smallTalk
  infer_instance

/-- A click for the list touches no row. -/
theorem callback_myTasks_stays {env : CallbackEnv} {q : CallbackQuery} {now : Int}
    (hb : buttonOf q.data = some .myTasks) : Stays (OnWorld S) (onCallbackQuery cfg env q now) := by
  have hkey : Stays (OnWorld S) (keyDecision cfg env.key q now) := by
    have hkept : Stays (KeptLists S) (keyDecision cfg env.key q now) := keyDecision_stays
    exact Stays.onWorld
  have hselect : Stays (OnWorld S) (selectSession now q.from_.id) := Stays.onWorld
  have hclicked : Stays (OnChat S) (clickedIssue q) := Stays.onChat
  have hown : Stays (OnWorld S) (ownCallback cfg env q now) := by
    unfold ownCallback
    rw [hb]
    simp only [Option.elim_some, pressButton]
    infer_instance
  unfold onCallbackQuery
  infer_instance

/-- A click deletes rows, or does not touch them. -/
theorem onCallbackQuery_onWorld {env : CallbackEnv} {q : CallbackQuery} {now : Int}
    (hdeletes : buttonOf q.data = some .taskClosing → OfDeletes S) :
    Stays (OnWorld S) (onCallbackQuery cfg env q now) := by
  by_cases hb : buttonOf q.data = some .myTasks
  · exact callback_myTasks_stays hb
  · have hkept : Stays (KeptLists S) (onCallbackQuery cfg env q now) := onCallbackQuery_stays_but hb hdeletes
    exact Stays.onWorld

/-- An update files a task, deletes rows, or does not touch them: a message files, the end of a task deletes. -/
theorem handleUpdate_onWorld [OfDispatch S] {env : UpdateEnv} {x : Update} (hfiles : ∀ m, x = .message m → OfFilings S)
    (hdeletes : ∀ q, x = .callback q → buttonOf q.data = some .taskClosing → OfDeletes S) :
    Stays (OnWorld S) (handleUpdate cfg env x) := by
  cases x with
  | message m =>
    have hdispatch : Stays (OnWorld S) (sessionDispatcher cfg env.dispatcher env.now m) := by
      have hkept := sessionDispatcher_stays (S := S) cfg env.dispatcher env.now m
      exact Stays.onWorld
    have hfilings := hfiles m rfl
    have htalk : Stays (OnWorld S) (handleSmallTalk cfg env.smallTalk m env.now) := handleSmallTalk_onWorld _ _ _
    unfold handleUpdate
    infer_instance
  | command name m =>
    have hkept : Stays (KeptLists S) (handleUpdate cfg env (.command name m)) := handleUpdate_stays_command
    exact Stays.onWorld
  | callback q => exact onCallbackQuery_onWorld fun hb => hdeletes q rfl hb

/-- Whatever the update: rows are written at the end, rows are deleted. -/
theorem handleUpdate_books (env : UpdateEnv) (x : Update) (w : World) :
    Books NoEdit w.sh (final (handleUpdate cfg env x) w).sh := by
  have hstays : Stays (OnWorld (Books NoEdit)) (handleUpdate cfg env x) :=
    handleUpdate_onWorld (fun _ _ => inferInstance) fun _ _ _ => inferInstance
  exact of_wp (P := fun _ => OnWorld (Books NoEdit) w) (hstays.within w)

theorem runTask_onWorld (env : TaskEnv) (task : Task) : Stays (OnWorld S) (serviceBot (runTask cfg env task)) := by
  have htask : Stays S (runTask cfg env task) := runTask_stays env task
  have hstays : Stays (KeptLists S) (serviceBot (runTask cfg env task)) := inferInstance
  exact Stays.onWorld

theorem runTask_books (env : TaskEnv) (task : Task) (w : World) :
    Books NoEdit w.sh (final (serviceBot (runTask cfg env task)) w).sh :=
  of_wp (P := fun _ => OnWorld (Books NoEdit) w) ((runTask_onWorld env task).within w)

end

/-! ### The checker -/

theorem Books.admits (P : Contractor → Prop) (id : Text) : Admits P (Books CardEdit) id where
  log _ _ _ := Relation.ReflTransGen.refl
  update s f hf := by
    have hf' : Updating (fun _ => True) f := by
      cases hf with
      | assigned _ => exact .assigned trivial
      | cleared => exact .cleared
      | listed listId => exact .listed listId
    exact .single (.edits ⟨id, f, hf', rfl⟩)
  delete _ := .single (.deletes _)

theorem processCard_books (cfg : Config) (id : Text) (env : CardEnv) :
    Within (OnShared (Books CardEdit)) (processCard cfg id env) := by
  apply (Books.admits (fun _ => True) id).processCard
  · exact fun _ _ hs => hs
  · exact fun c => Std.Refl.refl c.sh
  · exact fun _ _ _ _ => trivial

/-- An edit of the checker leaves what is fixed. -/
theorem CardEdit.fixed {f : IssueRow → IssueRow} (h : CardEdit f) (r : IssueRow) :
    (f r).id = r.id ∧ (f r).origin = r.origin := by
  obtain ⟨idCard, g, hg, rfl⟩ := h
  dsimp only
  split
  · cases hg <;> exact ⟨rfl, rfl⟩
  · exact ⟨rfl, rfl⟩

end Chanserv
