import Chanserv.Bot.Threads

/-! What a list leaves in the session.

`get_my_issues` fills three vectors of the session, an entry in each for every message
sent. What it leaves is told by the issues alone (`Remembers`): those of the rows whose
messages went out, from the first row to the call that failed, if one did. The loop
fills one buffer, row by row; as it empties it after each, no row sees another's. -/
namespace Chanserv
open Text Program

/-- The issue as the session keeps it once its message is sent. -/
def PgdbIssue.sentAs (issue : PgdbIssue) (sent : Sent) : PgdbIssue :=
  {issue with sentMsgId := sent.messageId, sentChatId := sent.chatId}

/-- The issues of the messages that go out for these rows, the first of which has the number `i`. -/
def listed (env : MyIssuesEnv) : Nat → List IssueRow → List PgdbIssue
  | _, [] => []
  | i, row :: rows =>
    match env.show_ i with
    | .returns sent => (issueOfRow (i + 1) row).sentAs sent :: listed env (i + 1) rows
    | .throws _ => []

/-- The three vectors are those of these issues, entry by entry. -/
structure Remembers (u : UserDispatcher) (issues : List PgdbIssue) : Prop where
  pgdbIssues : u.pgdbIssues = issues
  msgs : u.recentMsgs = issues.map fun p => ⟨p.id, p.sentMsgId⟩
  ids : u.recentMsgIds = issues.map PgdbIssue.sentMsgId

/-! ### The buffer -/

/-- A row read into the buffer: its photos come after those that are there. -/
def fillIssue (buffer : PgdbIssue) (p : Nat) (row : IssueRow) : PgdbIssue :=
  { buffer with
    id := row.id, fromWhom := row.consumerName ++ of " (@" ++ row.consumerLink ++ of ")",
    unit := row.section_, category := row.category, theme := row.theme,
    description := row.description, creationDate := row.createdTime, idCard := row.idCard,
    photos := buffer.photos ++ splitPhotos row.photos, project := row.project,
    contractorList := row.contractorList, contractorLink := row.contractorLink,
    contractorName := row.contractorName,
    issueNum := of "---------- Задача " ++ itoa p ++ of " ----------" }

/-- The loop over the result set, with its buffer. -/
def fillIssues (env : MyIssuesEnv) (receiver : Int) : PgdbIssue → Nat → List IssueRow → ChatM Unit
  | _, _, [] => pure ()
  | buffer, i, row :: rows => do
    let buffer := fillIssue buffer (i + 1) row
    let sent ← service (sendIssue receiver buffer (env.show_ i))
    modifySession (rememberIssue buffer sent)
    -- `pg_db_issue = {}`
    fillIssues env receiver {} (i + 1) rows

theorem fillIssue_empty (p : Nat) (row : IssueRow) : fillIssue {} p row = issueOfRow p row := rfl

section
variable {cfg : Config} {env : MyIssuesEnv} {receiver : Int} {c : Chat} {u : UserDispatcher}
  {issues : List PgdbIssue}

/-- A loop that begins each row with a new issue does what the loop with the buffer does. -/
theorem forEach_fillIssues {round : IssueRow × Nat → ChatM Unit}
    (hround : ∀ row i, round (row, i) = do
      let sent ← service (sendIssue receiver (issueOfRow (i + 1) row) (env.show_ i))
      modifySession (rememberIssue (issueOfRow (i + 1) row) sent))
    (rows : List IssueRow) (i : Nat) : forEach (rows.zipIdx i) round = fillIssues env receiver {} i rows := by
  induction rows generalizing i with
  | nil => rfl
  | cons row rows ih =>
    rw [List.zipIdx_cons, forEach, hround, ih, fillIssues]
    simp only [fillIssue_empty, bind_assoc]

/-! ### The vectors -/

theorem listed_sent {i : Nat} {row : IssueRow} {rows : List IssueRow} {sent : Sent}
    (h : env.show_ i = .returns sent) :
    listed env i (row :: rows) = (issueOfRow (i + 1) row).sentAs sent :: listed env (i + 1) rows := by
  simp only [listed, h]

theorem listed_failed {i : Nat} {row : IssueRow} {rows : List IssueRow} {x : Exn}
    (h : env.show_ i = .throws x) : listed env i (row :: rows) = [] := by
  simp only [listed, h]

theorem Remembers.remember (h : Remembers u issues) (issue : PgdbIssue) (sent : Sent) :
    Remembers (rememberIssue issue sent u) (issues ++ [issue.sentAs sent]) := by
  constructor
  · rw [← h.pgdbIssues]
    rfl
  · rw [List.map_append, ← h.msgs]
    rfl
  · rw [List.map_append, ← h.ids]
    rfl

/-- The loop, to its end or to the call that fails. -/
theorem fillIssues_remembers (rows : List IssueRow) (i : Nat) (h : Remembers c.ud issues) :
    wp (fillIssues env receiver {} i rows)
      (fun _ c' => (listed env i rows).length = rows.length ∧ Remembers c'.ud (issues ++ listed env i rows))
      (fun _ c' => Remembers c'.ud (issues ++ listed env i rows)) c := by
  induction rows generalizing i issues c with
  | nil =>
    rw [fillIssues, listed, List.append_nil]
    exact ⟨rfl, h⟩
  | cons row rows ih =>
    have hcall (e : Effect) : wp (call e (env.show_ i))
        (fun sent sh => wp (fillIssues env receiver {} (i + 1) rows)
          (fun _ c' => (listed env i (row :: rows)).length = (row :: rows).length ∧
            Remembers c'.ud (issues ++ listed env i (row :: rows)))
          (fun _ c' => Remembers c'.ud (issues ++ listed env i (row :: rows)))
          ⟨rememberIssue (issueOfRow (i + 1) row) sent c.ud, sh⟩)
        (fun _ _ => Remembers c.ud (issues ++ listed env i (row :: rows))) c.sh := by
      rw [wp_call]
      constructor
      · intro sent hsent
        rw [listed_sent hsent, List.append_cons]
        refine wp_mono (ih (i + 1) (h.remember (issueOfRow (i + 1) row) sent)) (fun _ _ hr => ?_) fun _ _ hr => hr
        exact ⟨congrArg (· + 1) hr.1, hr.2⟩
      · intro x hx
        rw [listed_failed hx, List.append_nil]
        exact h
    simp only [fillIssues, fillIssue_empty, wp_bind, wp_service, wp_modifySession]
    unfold sendIssue
    split <;> exact hcall _

theorem showRows_remembers (rows : List IssueRow) :
    wp (showRows cfg env receiver rows)
      (fun _ c' => (listed env 0 rows).length = rows.length ∧ Remembers c'.ud (listed env 0 rows))
      (fun _ c' => Remembers c'.ud (listed env 0 rows)) c := by
  rw [showRows, wp_bind, wp_modifySession, wp_bind, forEach_fillIssues fun _ _ => rfl]
  have hempty : Remembers (forgetIssues c.ud) [] := ⟨rfl, rfl, rfl⟩
  refine wp_mono (fillIssues_remembers (c := ⟨forgetIssues c.ud, c.sh⟩) rows 0 hempty) ?_ fun _ _ h => h
  intro _ c' h
  simp only [wp_guarded, wp_bind, wp_service, wp_call]
  exact ⟨fun _ => ⟨fun _ _ => ⟨fun _ => ⟨fun _ _ => h, fun _ _ => h.2⟩, fun _ => h⟩, fun _ _ => h.2⟩, fun _ => h⟩

/-- **What a list leaves**: the issues of the messages sent, which are all rows' if nothing failed. A SELECT
that ends with an exception leaves the session as it was. -/
theorem showMyIssues_remembers :
    wp (showMyIssues cfg env receiver)
      (fun _ c' => env.selectIssues.Normal ∧
        (listed env 0 (myRows env c.sh.db receiver)).length = (myRows env c.sh.db receiver).length ∧
          Remembers c'.ud (listed env 0 (myRows env c.sh.db receiver)))
      (fun _ c' => (¬env.selectIssues.Normal ∧ c'.ud = c.ud) ∨
        env.selectIssues.Normal ∧ Remembers c'.ud (listed env 0 (myRows env c.sh.db receiver))) c := by
  rw [showMyIssues, wp_bind, wp_service, wp_select]
  refine ⟨fun hr => ?_, fun hr => ?_, fun x hx => ?_⟩
  · have hnormal : env.selectIssues.Normal := by rw [hr]; trivial
    rw [myRows, if_pos hr]
    exact wp_mono (showRows_remembers _) (fun _ _ h => ⟨hnormal, h⟩) fun _ _ h => .inr ⟨hnormal, h⟩
  · have hnormal : env.selectIssues.Normal := by rw [hr]; trivial
    rw [myRows, if_neg (by rw [hr]; decide)]
    exact wp_mono (showRows_remembers _) (fun _ _ h => ⟨hnormal, h⟩) fun _ _ h => .inr ⟨hnormal, h⟩
  · exact .inl ⟨by rw [hx]; exact id, rfl⟩

end

/-- All messages of a list are sent, numbered from here on. -/
def MyIssuesEnv.from_ (first : Int) : MyIssuesEnv :=
  { selectIssues := .returns true, show_ := fun i => .returns ⟨first + i, 3⟩, noTasks := .returns ⟨first, 3⟩
    sticker := .returns ⟨first, 3⟩ }

def newcomer3 : UserDispatcher := {chatUserTgId := 3, chatUserTgName := [], chatUserFirstName := []}

end Chanserv
