import Chanserv.Bot.Threads

/-! What filing a task asks of Trello, of the database, of Jira and of support.

`filing` writes down, part by part, the cards, rows, issues, attachments and
reports one call of `create_new_issue` attempts, as a function of the answers it
gets. `filings_createNewIssue` says that the run attempts exactly these, in this
order; what holds of filing is then read off a list. -/
namespace Chanserv
open Text Program

/-- The effects that file something. A report to support is a message with the dashboard's
keyboard to a receiver from the settings. -/
def Effect.filing : Effect → Bool
  | .createNewCard .. | .insertIssue .. | .createTask _ | .addAttach .. => true
  | .sendMessage (.named _) _ .goDashboard _ => true
  | _ => false

def Effect.isInsert : Effect → Bool
  | .insertIssue .. => true
  | _ => false

def Effect.isCreateTask : Effect → Bool
  | .createTask _ => true
  | _ => false

def Shared.filings (s : Shared) : List Effect := s.trace.filter Effect.filing

theorem Shared.filings_log (s : Shared) (e : Effect) :
    (s.log e).filings = s.filings ++ if e.filing then [e] else [] :=
  Shared.filter_log Effect.filing s e

/-- The filings are read off the trace alone. -/
@[simp] theorem Shared.filings_mk (s : Shared) (db : Db) (consumers : List Int)
    (contractors : List Contractor) (allowed : List Int) (notified : List (Text × Text)) :
    Shared.filings ⟨db, consumers, contractors, allowed, notified, s.trace⟩ = s.filings := rfl

/-- What a run files. -/
def filings {α : Type} (m : ChatM α) (c : Chat) : List Effect :=
  (final m c).sh.filings.drop c.sh.filings.length

/-! ### The script -/

section
variable (cfg : Config) (env : CreateIssueEnv)

/-- The message of `sendTaskToSupport`. -/
def supportReport (info : Text) (task : NewTask) : Effect :=
  .sendMessage (.named cfg.supportTgId)
    (info ++ of " " ++ task.section_ ++ of " " ++ task.project ++ of " " ++ task.subj ++ of " " ++
      task.creationDate ++ task.description ++ of " от " ++ task.consumerName) .goDashboard

/-- The session as `create_new_issue` leaves it to its parts. -/
def prepared (u : UserDispatcher) : UserDispatcher :=
  escapeAll
    { u with
      createdCardId := []
      jiraTask := {u.jiraTask with creationDate := env.creationDate} }

/-- The id of the card, empty if there is none. -/
def createdCard : Text :=
  match cardOutcome env.newCard with
  | .returns (.ok id) => id
  | _ => []

def cardFiling (head : Text) (task : NewTask) : List Effect :=
  let threw := supportReport cfg (of "Ошибка создания карточки " ++ env.cardWhat ++ of "\n" ++ head) task
  .createNewCard cfg.distributionList (cardBody (cardName task) (head ++ task.description)) ::
    match cardOutcome env.newCard with
    | .returns (.ok _) => []
    | .returns (.error _) =>
      supportReport cfg (of "Ошибка создания карточки " ++ head) task ::
        if env.cardReport.Normal then [] else [threw]
    | .throws _ => [threw]

/-- INSERT and COMMIT both succeed. -/
def Written : Prop := env.insertIssue = .returns true ∧ env.commit = .returns true

instance : Decidable (Written env) := inferInstanceAs (Decidable (_ ∧ _))

def rowFiling (table : IssueTable) (task : NewTask) : List Effect :=
  .insertIssue table (rowOfTask task) ::
    if Written env then []
    else
      supportReport cfg (of "Ошибка записи в базу данных.") task ::
        if env.rowReport.Normal then []
        else [supportReport cfg (of "Ошибка записи в базу данных PostgreSQL.") task]

/-- Up to the first call that throws. -/
def attempted {ι : Type} (r : ι → Answer Unit) : List ι → List ι
  | [] => []
  | i :: is => i :: if (r i).Normal then attempted r is else []

def attachments (task : NewTask) (issueNum : Int) : List Effect :=
  (attempted (fun file => env.addAttach file.2) task.vLocalFilePaths.zipIdx).map fun file =>
    .addAttach file.1 (projName task ++ of "-" ++ itoa issueNum)

/-- The calls after the creation of the issue return. -/
def AttachesAll (task : NewTask) : Prop :=
  (∀ i < task.vLocalFilePaths.length, (env.addAttach i).Normal) ∧ (isTekla task → env.teklaAdmin.Normal)

instance (task : NewTask) : Decidable (AttachesAll env task) := inferInstanceAs (Decidable (_ ∧ _))

def jiraFiling (head : Text) (task : NewTask) : List Effect :=
  let threw := supportReport cfg (of "Ошибка создания задачи Jira " ++ env.jiraWhat ++ head) task
  .createTask (createTaskBody task (projName task)) ::
    match taskOutcome env.newTask with
    | .throws _ => [threw]
    | .returns issueNum =>
      if issueNum < 3 then
        supportReport cfg (of "Ошибка создания задачи Jira " ++ head) task ::
          if env.taskReport.Normal then [] else [threw]
      else attachments env task issueNum ++ if AttachesAll env task then [] else [threw]

instance : Decidable (CardSafe env) := by
  unfold CardSafe
  split <;> infer_instance

instance : Decidable (RowSafe env) := inferInstanceAs (Decidable (_ ∨ _))

/-- The user can be thanked. -/
def ThanksSafe : Prop := env.thanks.Normal ∧ (cfg.stickerList ≠ [] → env.sendSticker.Normal)

instance : Decidable (ThanksSafe cfg env) := inferInstanceAs (Decidable (_ ∧ _))

/-- Nothing between the row and the Jira issue throws. -/
def BoardSafe (files : Nat) : Prop :=
  RowSafe env ∧ (createdCard env ≠ [] → ∀ i < files, (env.addImg i).Normal) ∧ StaffSpared cfg env.staff

instance (files : Nat) : Decidable (BoardSafe cfg env files) := inferInstanceAs (Decidable (_ ∧ _))

/-- The session once the card is dealt with. -/
def withCard (u : UserDispatcher) : UserDispatcher :=
  { u with
    createdCardId := createdCard env
    jiraTask := {u.jiraTask with idCard := createdCard env} }

/-- What is filed on the board and in the tables. -/
def boardFiling (head : Text) (u : UserDispatcher) : List Effect :=
  cardFiling cfg env head u.jiraTask ++
    if CardSafe env then rowFiling cfg env .issues (withCard env u).jiraTask else []

/-- What is filed once the task is prepared. -/
def preparedFiling (head : Text) (u : UserDispatcher) : List Effect :=
  if isTekla u.jiraTask then
    if ThanksSafe cfg env then jiraFiling cfg env head u.jiraTask else []
  else
    boardFiling cfg env head u ++
      if (CardSafe env ∧ BoardSafe cfg env u.jiraTask.vLocalFilePaths.length) ∧ ThanksSafe cfg env then
        jiraFiling cfg env head u.jiraTask
      else []

/-- What `create_new_issue` files. -/
def filing (message : Message) (u : UserDispatcher) : List Effect :=
  if env.accepted.Normal then
    preparedFiling cfg env (cardDescription message.chat.username u.jiraTask) (prepared env u)
  else []

end

/-! ### What the parts consist of -/

section
variable {cfg : Config} {env : CreateIssueEnv} {head : Text} {task : NewTask} {e : Effect}

theorem mem_cardFiling (h : e ∈ cardFiling cfg env head task) :
    e = .createNewCard cfg.distributionList (cardBody (cardName task) (head ++ task.description)) ∨
      ∃ info, e = supportReport cfg (of "Ошибка создания карточки " ++ info) task := by
  rw [cardFiling, List.mem_cons] at h
  rcases h with h | h
  · exact .inl h
  · right
    have hthrew {e : Effect} (h : e ∈ [supportReport cfg
        (of "Ошибка создания карточки " ++ env.cardWhat ++ of "\n" ++ head) task]) :
        ∃ info, e = supportReport cfg (of "Ошибка создания карточки " ++ info) task :=
      ⟨env.cardWhat ++ (of "\n" ++ head), by
        rw [List.mem_singleton.mp h, List.append_assoc, List.append_assoc]⟩
    cases hc : cardOutcome env.newCard with
    | throws x =>
      rw [hc] at h
      exact hthrew h
    | returns card =>
      cases card with
      | ok id => simp [hc] at h
      | error code =>
        rw [hc, List.mem_cons] at h
        rcases h with h | h
        · exact ⟨_, h⟩
        · split at h
          · cases h
          · exact hthrew h

theorem mem_rowFiling {table : IssueTable} (h : e ∈ rowFiling cfg env table task) :
    e = .insertIssue table (rowOfTask task) ∨
      ∃ info ∈ [of "Ошибка записи в базу данных.", of "Ошибка записи в базу данных PostgreSQL."],
        e = supportReport cfg info task := by
  rw [rowFiling, List.mem_cons] at h
  rcases h with h | h
  · exact .inl h
  · right
    split at h
    · cases h
    · rw [List.mem_cons] at h
      rcases h with h | h
      · exact ⟨_, .head _, h⟩
      · split at h
        · cases h
        · exact ⟨_, .tail _ (.head _), List.mem_singleton.mp h⟩

theorem mem_jiraFiling (h : e ∈ jiraFiling cfg env head task) :
    e = .createTask (createTaskBody task (projName task)) ∨ (∃ path key, e = .addAttach path key) ∨
      ∃ info, e = supportReport cfg info task := by
  rw [jiraFiling, List.mem_cons] at h
  rcases h with h | h
  · exact .inl h
  · right
    cases hn : taskOutcome env.newTask with
    | throws x =>
      rw [hn, List.mem_singleton] at h
      exact .inr ⟨_, h⟩
    | returns n =>
      rw [hn] at h
      dsimp only at h
      split at h
      · rw [List.mem_cons] at h
        rcases h with h | h
        · exact .inr ⟨_, h⟩
        · split at h
          · cases h
          · exact .inr ⟨_, List.mem_singleton.mp h⟩
      · rw [List.mem_append] at h
        rcases h with h | h
        · rw [attachments, List.mem_map] at h
          obtain ⟨file, -, rfl⟩ := h
          exact .inl ⟨_, _, rfl⟩
        · split at h
          · cases h
          · exact .inr ⟨_, List.mem_singleton.mp h⟩

/-- The request to Jira is made. -/
def Requested (cfg : Config) (env : CreateIssueEnv) (u : UserDispatcher) : Prop :=
  env.accepted.Normal ∧
    (isTekla u.jiraTask = false → CardSafe env ∧ BoardSafe cfg env u.jiraTask.vLocalFilePaths.length) ∧
    ThanksSafe cfg env

instance (u : UserDispatcher) : Decidable (Requested cfg env u) := inferInstanceAs (Decidable (_ ∧ _))

variable (cfg env) in
/-- First the board and the tables, then Jira if the request is made. -/
theorem filing_eq (message : Message) (u : UserDispatcher) :
    ∃ board, filing cfg env message u = board ++
        (if Requested cfg env u then
          jiraFiling cfg env (cardDescription message.chat.username u.jiraTask) (prepared env u).jiraTask
        else []) ∧
      (∀ e ∈ board, isTekla u.jiraTask = false ∧
        e ∈ boardFiling cfg env (cardDescription message.chat.username u.jiraTask) (prepared env u)) := by
  have hprepared : isTekla (prepared env u).jiraTask = isTekla u.jiraTask := rfl
  by_cases hacc : env.accepted.Normal
  · rw [filing, if_pos hacc, preparedFiling, hprepared]
    cases htekla : isTekla u.jiraTask with
    | true =>
      have hreq : Requested cfg env u ↔ ThanksSafe cfg env := by simp [Requested, hacc, htekla]
      exact ⟨[], by simp only [hreq, if_true, List.nil_append], by simp⟩
    | false =>
      have hreq : Requested cfg env u ↔
          (CardSafe env ∧ BoardSafe cfg env u.jiraTask.vLocalFilePaths.length) ∧ ThanksSafe cfg env := by
        simp [Requested, hacc, htekla]
      refine ⟨_, ?_, fun _ he => ⟨rfl, he⟩⟩
      simp only [hreq, Bool.false_eq_true, if_false]
      rfl
  · have hreq : ¬Requested cfg env u := fun h => hacc h.1
    exact ⟨[], by rw [filing, if_neg hacc, if_neg hreq]; rfl, by simp⟩

end

/-! ### The run follows the script -/

section
variable {cfg : Config} {env : CreateIssueEnv} {head : Text} {c : Chat}

/-- A report is sent, whatever becomes of it. -/
theorem wp_report {info : Text} {task : NewTask} {r : Sending} {Q : Unit → Shared → Prop}
    {E : Stop → Shared → Prop} {sh : Shared} :
    wp (sendTaskToSupport cfg info task .goDashboard r) Q E sh ↔
      (r.Normal → Q () (sh.log (supportReport cfg info task))) ∧
        ∀ e, r = .throws e → E (.throws e) (sh.log (supportReport cfg info task)) := by
  simp only [sendTaskToSupport, sendMsgToSupport, wp_bind, wp_call, wp_pure]
  cases r <;> simp [Reply.Normal, supportReport]

@[simp] theorem filings_report (sh : Shared) (info : Text) (task : NewTask) :
    (sh.log (supportReport cfg info task)).filings = sh.filings ++ [supportReport cfg info task] :=
  sh.filings_log _

@[simp] theorem filings_card (sh : Shared) (listId body : Text) :
    (sh.log (.createNewCard listId body)).filings = sh.filings ++ [.createNewCard listId body] :=
  sh.filings_log _

@[simp] theorem filings_row (sh : Shared) (table : IssueTable) (row : IssueRow) :
    (sh.log (.insertIssue table row)).filings = sh.filings ++ [.insertIssue table row] :=
  sh.filings_log _

@[simp] theorem filings_task (sh : Shared) (body : Text) :
    (sh.log (.createTask body)).filings = sh.filings ++ [.createTask body] :=
  sh.filings_log _

@[simp] theorem filings_attach (sh : Shared) (path key : Text) :
    (sh.log (.addAttach path key)).filings = sh.filings ++ [.addAttach path key] :=
  sh.filings_log _

/-- Any other effect. -/
theorem filings_other {e : Effect} (h : e.filing = false) (sh : Shared) :
    (sh.log e).filings = sh.filings := by
  rw [Shared.filings_log, h, if_neg Bool.false_ne_true, List.append_nil]

theorem fileCard_files (hid : c.ud.createdCardId = []) :
    wp (fileCard cfg env head)
      (fun _ d => CardSafe env ∧
        d.sh.filings = c.sh.filings ++ cardFiling cfg env head c.ud.jiraTask ∧ d.ud = withCard env c.ud)
      (fun _ d => ¬CardSafe env ∧
        d.sh.filings = c.sh.filings ++ cardFiling cfg env head c.ud.jiraTask) c := by
  have hud (h : createdCard env = []) :
      {c.ud with jiraTask := {c.ud.jiraTask with idCard := c.ud.createdCardId}} = withCard env c.ud := by
    rw [withCard, h, ← hid]
  rw [fileCard, wp_bind, wp_get, wp_bind, wp_catching, wp_bind, wp_service, createNewCard_eq, wp_call]
  constructor
  · intro card hcard
    cases card with
    | ok id =>
      show CardSafe env ∧ _ ∧ _
      simp [CardSafe, cardFiling, withCard, createdCard, hcard]
    | error code =>
      have hnone : createdCard env = [] := by rw [createdCard, hcard]
      rw [wp_service, wp_report]
      constructor
      · intro hr
        exact ⟨by simp [CardSafe, hcard, hr], by simp [cardFiling, hcard, hr], hud hnone⟩
      · intro e he
        have hr : ¬env.cardReport.Normal := fun h => h.not_throws he
        rw [wp_service, wp_report]
        constructor
        · intro hr'
          exact ⟨by simp [CardSafe, hcard, hr'], by simp [cardFiling, hcard, hr], hud hnone⟩
        · intro e' he'
          have hr' : ¬env.cardThrewReport.Normal := fun h => h.not_throws he'
          exact ⟨by simp [CardSafe, hcard, hr, hr'], by simp [cardFiling, hcard, hr]⟩
  · intro e hcard
    have hnone : createdCard env = [] := by rw [createdCard, hcard]
    rw [wp_service, wp_report]
    constructor
    · intro hr
      exact ⟨by simp [CardSafe, hcard, hr], by simp [cardFiling, hcard], hud hnone⟩
    · intro e' he'
      have hr : ¬env.cardThrewReport.Normal := fun h => h.not_throws he'
      exact ⟨by simp [CardSafe, hcard, hr], by simp [cardFiling, hcard]⟩

/-- The INSERT and the COMMIT, and whether both succeed. -/
theorem writeIssueToDb_files (task : NewTask) (table : IssueTable) (sh : Shared) :
    wp (writeIssueToDb task table env)
      (fun ok sh' => (ok = true ↔ Written env) ∧
        sh'.filings = sh.filings ++ [.insertIssue table (rowOfTask task)])
      (fun _ _ => False) sh := by
  have hcommit (sh : Shared) : (sh.log .commit).filings = sh.filings := filings_other rfl sh
  simp only [writeIssueToDb, wp_catching, wp_bind, wp_sql, wp_ite, wp_call, wp_pure]
  constructor
  · intro hi
    constructor
    · intro _
      constructor
      · intro ok hc
        exact ⟨by simp [Written, hi, hc], by simp [hcommit]⟩
      · intro e hc
        exact ⟨by simp [Written, hc], by simp [hcommit]⟩
    · intro hn
      exact absurd trivial hn
  constructor
  · intro hi
    constructor
    · intro hn
      cases hn
    · intro _
      exact ⟨by simp [Written, hi], by simp⟩
  · intro e hi
    exact ⟨by simp [Written, hi], by simp⟩

theorem fileRow_files (htekla : isTekla c.ud.jiraTask = false) :
    wp (fileRow cfg env)
      (fun _ d => RowSafe env ∧
        d.sh.filings = c.sh.filings ++ rowFiling cfg env .issues c.ud.jiraTask ∧ d.ud = c.ud)
      (fun _ d => ¬RowSafe env ∧
        d.sh.filings = c.sh.filings ++ rowFiling cfg env .issues c.ud.jiraTask) c := by
  rw [fileRow, wp_bind, wp_get, wp_service, wp_catching, wp_bind]
  dsimp only
  rw [htekla, if_neg Bool.false_ne_true]
  refine wp_mono (writeIssueToDb_files _ _ _) (fun ok sh h => ?_) fun _ _ => False.elim
  obtain ⟨hok, hsh⟩ := h
  rw [wp_guarded]
  constructor
  · intro hfalse
    have hw : ¬Written env := fun h => by rw [hok.mpr h] at hfalse; cases hfalse
    rw [wp_report]
    constructor
    · intro hr
      exact ⟨.inr (.inl hr), by simp [rowFiling, hw, hr, hsh], rfl⟩
    · intro e he
      have hr : ¬env.rowReport.Normal := fun h => h.not_throws he
      rw [wp_report]
      constructor
      · intro hr'
        exact ⟨.inr (.inr hr'), by simp [rowFiling, hw, hr, hsh], rfl⟩
      · intro e' he'
        have hr' : ¬env.rowThrewReport.Normal := fun h => h.not_throws he'
        exact ⟨by rintro (h | h | h) <;> contradiction, by simp [rowFiling, hw, hr, hsh]⟩
  · intro htrue
    have hw : Written env := hok.mp (by simpa using htrue)
    exact ⟨.inl hw, by simp [rowFiling, hw, hsh], rfl⟩

/-- A call that files nothing completes exactly when it returns. -/
theorem call_unfiled {α : Type} {e : Effect} (he : e.filing = false) (r : Answer α) {sh sh' : Shared}
    (h : sh'.filings = sh.filings) :
    wp (call e r) (fun _ sh'' => r.Normal ∧ sh''.filings = sh.filings)
      (fun _ sh'' => ¬r.Normal ∧ sh''.filings = sh.filings) sh' := by
  have hlog : (sh'.log e).filings = sh.filings := (filings_other he sh').trans h
  rw [wp_call]
  constructor
  · intro a hr
    exact ⟨hr ▸ trivial, hlog⟩
  · intro x hr
    exact ⟨fun hn => hn.not_throws hr, hlog⟩

theorem fileImages_files :
    wp (fileImages env)
      (fun _ d => (c.ud.createdCardId ≠ [] →
          ∀ i < c.ud.jiraTask.vLocalFilePaths.length, (env.addImg i).Normal) ∧
        d.sh.filings = c.sh.filings ∧ d.ud = c.ud)
      (fun _ d => ¬(c.ud.createdCardId ≠ [] →
          ∀ i < c.ud.jiraTask.vLocalFilePaths.length, (env.addImg i).Normal) ∧
        d.sh.filings = c.sh.filings) c := by
  rw [fileImages, wp_bind, wp_get, wp_guarded]
  constructor
  · intro hid
    rw [wp_service]
    have hloop := wp_forEach_iff (I := fun sh => sh.filings = c.sh.filings)
      (P := fun x : Text × Nat => (env.addImg x.2).Normal)
      (f := fun x => addImgToCard c.ud.createdCardId x.1 (env.addImg x.2))
      (fun x (_ : x ∈ c.ud.jiraTask.vLocalFilePaths.zipIdx) sh hsh => call_unfiled rfl _ hsh) (s := c.sh) rfl
    apply wp_mono hloop
    · intro _ sh h
      exact ⟨fun _ => forall_mem_zipIdx.mp h.1, h.2, rfl⟩
    · intro _ sh h
      exact ⟨fun hn => h.1 (forall_mem_zipIdx.mpr (hn hid)), h.2⟩
  · intro hid
    exact ⟨fun h => absurd h hid, rfl, rfl⟩

theorem notifyStaff_files :
    wp (notifyStaff cfg env)
      (fun _ d => StaffSpared cfg env.staff ∧ d.sh.filings = c.sh.filings ∧ d.ud = c.ud)
      (fun _ d => ¬StaffSpared cfg env.staff ∧ d.sh.filings = c.sh.filings) c := by
  rw [notifyStaff, wp_bind, wp_get, wp_inThread, wp_service]
  have hround (text : Text) (x : Int × Nat) (sh : Shared) (hsh : sh.filings = c.sh.filings) :
      wp (catchingTg (do
          let _ ← call (.sendMessage (.user x.1) text .goDashboard) (env.staff x.2)) (pure ()))
        (fun _ sh' => env.staff x.2 ≠ .throws .stdException ∧ sh'.filings = c.sh.filings)
        (fun _ sh' => ¬env.staff x.2 ≠ .throws .stdException ∧ sh'.filings = c.sh.filings) sh := by
    have hlog := (filings_other (e := .sendMessage (.user x.1) text .goDashboard) rfl sh).trans hsh
    rw [wp_catchingTg, wp_bind, wp_call]
    constructor
    · intro a hr
      exact ⟨by simp [hr], hlog⟩
    · intro e hr
      cases e with
      | tgException => exact ⟨by simp [hr], hlog⟩
      | stdException => exact ⟨by simp [hr], hlog⟩
  apply wp_mono (wp_forEach_iff (fun x _ sh hsh => hround _ x sh hsh) rfl)
  · intro _ sh h
    exact ⟨forall_mem_zipIdx.mp h.1, h.2, rfl⟩
  · intro stop sh h
    have hstaff : ¬StaffSpared cfg env.staff := fun hn => h.1 (forall_mem_zipIdx.mpr hn)
    cases stop <;> exact ⟨hstaff, h.2⟩

theorem thankUser_files (message : Message) :
    wp (thankUser cfg env message)
      (fun _ d => ThanksSafe cfg env ∧ d.sh.filings = c.sh.filings ∧ d.ud = c.ud)
      (fun _ d => ¬ThanksSafe cfg env ∧ d.sh.filings = c.sh.filings) c := by
  rw [thankUser, wp_bind, wp_service]
  apply wp_mono (call_unfiled rfl env.thanks rfl)
  · intro _ sh h
    obtain ⟨hthanks, hsh⟩ := h
    cases hs : cfg.stickerList[env.sticker % cfg.stickerList.length]? with
    | none =>
      have hnil : cfg.stickerList = [] := by
        by_contra hne
        have := Nat.mod_lt env.sticker (List.length_pos_iff.mpr hne)
        rw [List.getElem?_eq_getElem this] at hs
        cases hs
      exact ⟨⟨hthanks, fun hne => absurd hnil hne⟩, hsh, rfl⟩
    | some sticker =>
      have hne : cfg.stickerList ≠ [] := by
        intro hnil
        rw [hnil] at hs
        cases hs
      show wp (service (call _ env.sendSticker) >>= fun _ => pure ()) _ _ _
      rw [wp_bind, wp_service]
      apply wp_mono (call_unfiled rfl env.sendSticker hsh)
      · intro _ sh' h'
        exact ⟨⟨hthanks, fun _ => h'.1⟩, h'.2, rfl⟩
      · intro _ sh' h'
        exact ⟨fun hn => h'.1 (hn.2 hne), h'.2⟩
  · intro _ sh h
    exact ⟨fun hn => h.1 hn.1, h.2⟩

/-- The uploads stop at the first that throws. -/
theorem addAttach_files (key : Text) (files : List (Text × Nat)) (sh : Shared) :
    wp (forEach files fun file => addAttach file.1 key (env.addAttach file.2))
      (fun _ sh' => (∀ file ∈ files, (env.addAttach file.2).Normal) ∧
        sh'.filings = sh.filings ++
          (attempted (fun file => env.addAttach file.2) files).map fun file => .addAttach file.1 key)
      (fun stop sh' => stop.fatal = false ∧ (¬∀ file ∈ files, (env.addAttach file.2).Normal) ∧
        sh'.filings = sh.filings ++
          (attempted (fun file => env.addAttach file.2) files).map fun file => .addAttach file.1 key) sh := by
  induction files generalizing sh with
  | nil => exact ⟨by simp, by simp [attempted]⟩
  | cons file files ih =>
    rw [forEach, wp_bind, addAttach, wp_call]
    constructor
    · intro _ hr
      have hn : (env.addAttach file.2).Normal := hr ▸ trivial
      apply wp_mono (ih (sh.log (.addAttach file.1 key)))
      · intro _ sh' h
        exact ⟨List.forall_mem_cons.mpr ⟨hn, h.1⟩, by simp [h.2, attempted, hn]⟩
      · intro _ sh' h
        exact ⟨h.1, fun hall => h.2.1 (List.forall_mem_cons.mp hall).2, by simp [h.2.2, attempted, hn]⟩
    · intro x hr
      have hn : ¬(env.addAttach file.2).Normal := fun hn => hn.not_throws hr
      exact ⟨rfl, fun hall => hn (List.forall_mem_cons.mp hall).1, by simp [attempted, hn]⟩

theorem fileAttachments_files (n : Int) :
    wp (fileAttachments cfg env n)
      (fun _ d => AttachesAll env c.ud.jiraTask ∧
        d.sh.filings = c.sh.filings ++ attachments env c.ud.jiraTask n)
      (fun stop d => stop.fatal = false ∧ ¬AttachesAll env c.ud.jiraTask ∧
        d.sh.filings = c.sh.filings ++ attachments env c.ud.jiraTask n) c := by
  rw [fileAttachments, wp_bind, wp_get, wp_bind, wp_service]
  apply wp_mono (addAttach_files _ _ _)
  · intro _ sh h
    obtain ⟨hall, hsh⟩ := h
    rw [wp_guarded]
    constructor
    · intro htekla
      rw [wp_service, wp_bind, wp_call]
      have hadmin := filings_other (e := .sendMessage (.named cfg.teklaAdminTgId)
        (of "B Jira появилась новая задача: " ++ cfg.jiraBrowseUrl ++ of "TEKLA-" ++ itoa n)) rfl sh
      constructor
      · intro _ hr
        exact ⟨⟨forall_mem_zipIdx.mp hall, fun _ => hr ▸ trivial⟩, hadmin.trans hsh⟩
      · intro x hr
        exact ⟨rfl, fun hn => (hn.2 htekla).not_throws hr, hadmin.trans hsh⟩
    · intro htekla
      exact ⟨⟨forall_mem_zipIdx.mp hall, fun h => absurd h htekla⟩, hsh⟩
  · intro stop sh h
    exact ⟨h.1, fun hn => h.2.1 (forall_mem_zipIdx.mpr hn.1), h.2.2⟩

theorem fileInJira_files :
    wp (fileInJira cfg env head)
      (fun _ d => d.sh.filings = c.sh.filings ++ jiraFiling cfg env head c.ud.jiraTask)
      (fun _ d => d.sh.filings = c.sh.filings ++ jiraFiling cfg env head c.ud.jiraTask) c := by
  let task := c.ud.jiraTask
  let threw := supportReport cfg (of "Ошибка создания задачи Jira " ++ env.jiraWhat ++ head) task
  have hcaught (d : Chat) (hd : d.sh.filings ++ [threw] =
      c.sh.filings ++ jiraFiling cfg env head task) :
      wp (do
        service (sendTaskToSupport cfg (of "Ошибка создания задачи Jira " ++ env.jiraWhat ++ head) task
          .goDashboard env.taskThrewReport)
        modifySession fun u => {u with lastError := 1})
        (fun _ d => d.sh.filings = c.sh.filings ++ jiraFiling cfg env head task)
        (fun _ d => d.sh.filings = c.sh.filings ++ jiraFiling cfg env head task) d := by
    rw [wp_bind, wp_service, wp_report]
    constructor
    · intro _
      exact (filings_report _ _ _).trans hd
    · intro _ _
      exact (filings_report _ _ _).trans hd
  rw [fileInJira, wp_bind, wp_get, wp_catching, wp_bind, wp_service, createTask_eq, wp_call]
  constructor
  · intro n hn
    rw [wp_ite]
    constructor
    · intro hcode
      rw [wp_bind, wp_service, wp_report]
      constructor
      · intro hr
        show Shared.filings _ = _
        simp [jiraFiling, hn, hcode, hr]
      · intro e he
        have hr : ¬env.taskReport.Normal := fun h => h.not_throws he
        apply hcaught
        simp [jiraFiling, hn, hcode, hr, task, threw]
    · intro hcode
      apply wp_mono (fileAttachments_files n)
      · intro _ d h
        rw [h.2]
        simp [jiraFiling, hn, hcode, h.1]
      · intro stop d h
        cases stop with
        | throws e =>
          apply hcaught
          rw [h.2.2]
          simp [jiraFiling, hn, hcode, h.2.1, task, threw]
        | _ => cases h.1
  · intro e he
    apply hcaught
    simp [jiraFiling, he, task, threw]

theorem fileOnBoard_files (hid : c.ud.createdCardId = []) (htekla : isTekla c.ud.jiraTask = false) :
    wp (fileOnBoard cfg env head)
      (fun _ d => (CardSafe env ∧ BoardSafe cfg env c.ud.jiraTask.vLocalFilePaths.length) ∧
        d.sh.filings = c.sh.filings ++ boardFiling cfg env head c.ud ∧ d.ud = withCard env c.ud)
      (fun _ d => ¬(CardSafe env ∧ BoardSafe cfg env c.ud.jiraTask.vLocalFilePaths.length) ∧
        d.sh.filings = c.sh.filings ++ boardFiling cfg env head c.ud) c := by
  rw [fileOnBoard, wp_bind]
  apply wp_mono (fileCard_files hid)
  · intro _ d₁ h₁
    obtain ⟨hcard, hfiled₁, hud₁⟩ := h₁
    have hrow : wp (fileRow cfg env) _ _ d₁ := fileRow_files (by rw [hud₁]; exact htekla)
    have hboard : d₁.sh.filings ++ rowFiling cfg env .issues d₁.ud.jiraTask =
        c.sh.filings ++ boardFiling cfg env head c.ud := by
      rw [hfiled₁, hud₁, boardFiling, if_pos hcard, List.append_assoc]
    rw [wp_bind]
    apply wp_mono hrow
    · intro _ d₂ h₂
      obtain ⟨hrowSafe, hfiled₂, hud₂⟩ := h₂
      rw [hboard] at hfiled₂
      have hud₂ : d₂.ud = withCard env c.ud := hud₂.trans hud₁
      rw [wp_bind]
      apply wp_mono fileImages_files
      · intro _ d₃ h₃
        obtain ⟨himages, hfiled₃, hud₃⟩ := h₃
        rw [hud₂] at himages
        apply wp_mono notifyStaff_files
        · intro _ d₄ h₄
          exact ⟨⟨hcard, hrowSafe, himages, h₄.1⟩, h₄.2.1.trans (hfiled₃.trans hfiled₂),
            h₄.2.2.trans (hud₃.trans hud₂)⟩
        · intro _ d₄ h₄
          exact ⟨fun hn => h₄.1 hn.2.2.2, h₄.2.trans (hfiled₃.trans hfiled₂)⟩
      · intro _ d₃ h₃
        rw [hud₂] at h₃
        exact ⟨fun hn => h₃.1 hn.2.2.1, h₃.2.trans hfiled₂⟩
    · intro _ d₂ h₂
      exact ⟨fun hn => h₂.1 hn.2.1, h₂.2.trans hboard⟩
  · intro _ d₁ h₁
    exact ⟨fun hn => h₁.1 hn.1, by rw [h₁.2, boardFiling, if_neg h₁.1, List.append_nil]⟩

variable (cfg env head)

/-- Thanks and Jira, for a task whose number of the card is of no interest any more. -/
theorem thankAndFile_files (message : Message) (task : NewTask)
    (hsame : jiraFiling cfg env head c.ud.jiraTask = jiraFiling cfg env head task) :
    wp (do thankUser cfg env message; fileInJira cfg env head)
      (fun _ d => ThanksSafe cfg env ∧ d.sh.filings = c.sh.filings ++ jiraFiling cfg env head task)
      (fun _ d => d.sh.filings = c.sh.filings ++
        if ThanksSafe cfg env then jiraFiling cfg env head task else []) c := by
  rw [wp_bind]
  apply wp_mono (thankUser_files message)
  · intro _ d h
    obtain ⟨hthanks, hfiled, hud⟩ := h
    have hjira : wp (fileInJira cfg env head) _ _ d := fileInJira_files
    rw [hud, hsame, hfiled] at hjira
    apply wp_mono hjira
    · intro _ d' h'
      exact ⟨hthanks, h'⟩
    · intro _ d' h'
      rw [if_pos hthanks]
      exact h'
  · intro _ d h
    rw [if_neg h.1, List.append_nil]
    exact h.2

theorem prepared_files (message : Message) (hid : c.ud.createdCardId = []) :
    wp (do
      guarded (isTekla c.ud.jiraTask = false) (fileOnBoard cfg env head)
      thankUser cfg env message
      fileInJira cfg env head)
      (fun _ d => d.sh.filings = c.sh.filings ++ preparedFiling cfg env head c.ud)
      (fun _ d => d.sh.filings = c.sh.filings ++ preparedFiling cfg env head c.ud) c := by
  rw [wp_bind, wp_guarded]
  constructor
  · intro htekla
    have hpos : preparedFiling cfg env head c.ud = boardFiling cfg env head c.ud ++
        if (CardSafe env ∧ BoardSafe cfg env c.ud.jiraTask.vLocalFilePaths.length) ∧
          ThanksSafe cfg env then jiraFiling cfg env head c.ud.jiraTask else [] := by
      rw [preparedFiling, htekla, if_neg Bool.false_ne_true]
    rw [hpos]
    apply wp_mono (fileOnBoard_files hid htekla)
    · intro _ d h
      obtain ⟨hsafe, hfiled, hud⟩ := h
      have hend := thankAndFile_files cfg env head (c := d) message c.ud.jiraTask (by rw [hud]; rfl)
      rw [hfiled] at hend
      apply wp_mono hend
      · intro _ d' h'
        rw [if_pos ⟨hsafe, h'.1⟩, ← List.append_assoc]
        exact h'.2
      · intro _ d' h'
        rw [h', List.append_assoc]
        simp only [hsafe, true_and]
    · intro _ d h
      rw [if_neg fun hn => h.1 hn.1, List.append_nil]
      exact h.2
  · intro htekla
    have hneg : preparedFiling cfg env head c.ud =
        if ThanksSafe cfg env then jiraFiling cfg env head c.ud.jiraTask else [] := by
      rw [preparedFiling, if_pos (by simpa using htekla)]
    rw [hneg]
    apply wp_mono (thankAndFile_files cfg env head message c.ud.jiraTask rfl)
    · intro _ d h
      rw [if_pos h.1]
      exact h.2
    · intro _ d h
      exact h

theorem submitTask_files (message : Message) :
    wp (submitTask cfg env message)
      (fun _ d => d.sh.filings = c.sh.filings ++ filing cfg env message c.ud)
      (fun _ d => d.sh.filings = c.sh.filings ++ filing cfg env message c.ud) c := by
  let e := Effect.sendMessage (.user message.chat.id) (of "Записано. Отправляем задачу в БД...")
  have haccepted : (c.sh.log e).filings = c.sh.filings := filings_other rfl c.sh
  rw [submitTask, wp_bind, wp_service, wp_call]
  constructor
  · intro _ hr
    rw [wp_bind, wp_modifyTask, wp_bind, wp_get, wp_bind, wp_modifySession]
    have hrest := prepared_files cfg env (cardDescription message.chat.username c.ud.jiraTask)
      (c := ⟨prepared env c.ud, c.sh.log e⟩) message rfl
    rw [haccepted] at hrest
    rw [filing, if_pos (by rw [hr]; trivial)]
    exact hrest
  · intro x hr
    rw [filing, if_neg fun hn => hn.not_throws hr, List.append_nil]
    exact haccepted

/-- A call of `create_new_issue` files what the script says. -/
theorem filings_createNewIssue (message : Message) (c : Chat) :
    filings (createNewIssue cfg env message) c = filing cfg env message c.ud := by
  have hlog : (c.sh.log (.createNewIssue c.ud.jiraTask)).filings = c.sh.filings := filings_other rfl c.sh
  have hrun : wp (createNewIssue cfg env message)
      (fun _ d => d.sh.filings = c.sh.filings ++ filing cfg env message c.ud)
      (fun _ d => d.sh.filings = c.sh.filings ++ filing cfg env message c.ud) c := by
    rw [createNewIssue, wp_bind, wp_get, wp_bind, wp_service, wp_log, wp_bind]
    have hsubmit : wp (submitTask cfg env message) _ _ ⟨c.ud, c.sh.log (.createNewIssue c.ud.jiraTask)⟩ :=
      submitTask_files cfg env message
    rw [hlog] at hsubmit
    exact hsubmit
  have hfinal : (final (createNewIssue cfg env message) c).sh.filings =
      c.sh.filings ++ filing cfg env message c.ud :=
    of_wp (P := fun _ (d : Chat) => d.sh.filings = c.sh.filings ++ filing cfg env message c.ud) hrun
  rw [filings, hfinal, List.drop_left]

end

end Chanserv
