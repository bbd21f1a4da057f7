import Chanserv.Filing.Script

/-! Whether a submitted task is written to the tables.

The choice between the two tables stands inside the branch that a task for Tekla
never enters, so such a task is not written at all. -/
namespace Chanserv
open Text Program

/-- The table of a task's type. -/
def tableOf (task : NewTask) : IssueTable := if isTekla task then .teklaIssues else .issues

/-- One INSERT of the session's task into the table of its type, no request to Jira before it,
and a report to support right after it if it failed. -/
def PersistedOnce (cfg : Config) (env : CreateIssueEnv) (u : UserDispatcher) (es : List Effect) : Prop :=
  ∃ pre post, es =
      pre ++ .insertIssue (tableOf u.jiraTask) (rowOfTask (withCard env (prepared env u)).jiraTask) :: post ∧
    (∀ e ∈ pre, e.isInsert = false ∧ e.isCreateTask = false) ∧ (∀ e ∈ post, e.isInsert = false) ∧
    (¬Written env → ∃ t rest, post = supportReport cfg (of "Ошибка записи в базу данных.") t :: rest)

section
variable {cfg : Config} {env : CreateIssueEnv} {head : Text}

theorem cardFiling_inserts (task : NewTask) :
    ∀ e ∈ cardFiling cfg env head task, e.isInsert = false ∧ e.isCreateTask = false := by
  intro e he
  rcases mem_cardFiling he with rfl | ⟨info, rfl⟩ <;> exact ⟨rfl, rfl⟩

theorem jiraFiling_inserts (task : NewTask) :
    ∀ e ∈ jiraFiling cfg env head task, e.isInsert = false := by
  intro e he
  rcases mem_jiraFiling he with rfl | ⟨path, key, rfl⟩ | ⟨info, rfl⟩ <;> rfl

/-- The INSERT comes first among what is filed for the row, and is followed by a report
exactly if it failed. -/
theorem rowFiling_eq (table : IssueTable) (task : NewTask) :
    ∃ post, rowFiling cfg env table task = .insertIssue table (rowOfTask task) :: post ∧
      (∀ e ∈ post, e.isInsert = false) ∧
      (¬Written env →
        ∃ t rest, post = supportReport cfg (of "Ошибка записи в базу данных.") t :: rest) := by
  by_cases hw : Written env
  · exact ⟨[], by rw [rowFiling, if_pos hw], by simp, fun h => absurd hw h⟩
  · refine ⟨_, by rw [rowFiling, if_neg hw], ?_, fun _ => ⟨task, _, rfl⟩⟩
    intro e he
    rw [List.mem_cons] at he
    rcases he with rfl | he
    · rfl
    · split at he <;> simp at he
      subst he
      rfl

end

/-- A task is written once, to the table of its type and before the request to Jira, exactly
if it is not one for Tekla, the first message to the user is sent, and the failure of its
card, if any, could be reported. A failed attempt is then reported. -/
theorem task_persisted_once (cfg : Config) (env : CreateIssueEnv) (message : Message) (c : Chat) :
    PersistedOnce cfg env c.ud (filings (createNewIssue cfg env message) c) ↔
      isTekla c.ud.jiraTask = false ∧ env.accepted.Normal ∧ CardSafe env := by
  rw [filings_createNewIssue, filing]
  have hprepared : isTekla (prepared env c.ud).jiraTask = isTekla c.ud.jiraTask := rfl
  constructor
  · intro h
    obtain ⟨pre, post, hes, -⟩ := h
    have hmem := List.mem_append_right pre (List.mem_cons_self (l := post)
      (a := Effect.insertIssue (tableOf c.ud.jiraTask) (rowOfTask (withCard env (prepared env c.ud)).jiraTask)))
    rw [← hes] at hmem
    by_cases hacc : env.accepted.Normal
    · rw [if_pos hacc, preparedFiling, hprepared] at hmem
      cases htekla : isTekla c.ud.jiraTask with
      | true =>
        rw [htekla, if_pos rfl] at hmem
        split at hmem
        · have := jiraFiling_inserts _ _ hmem
          cases this
        · cases hmem
      | false =>
        refine ⟨rfl, hacc, ?_⟩
        by_contra hcard
        rw [htekla, if_neg Bool.false_ne_true, boardFiling, if_neg hcard, if_neg fun h => hcard h.1.1,
          List.append_nil, List.append_nil] at hmem
        have := (cardFiling_inserts _ _ hmem).1
        cases this
    · rw [if_neg hacc] at hmem
      cases hmem
  · rintro ⟨htekla, hacc, hcard⟩
    rw [if_pos hacc, preparedFiling, hprepared, htekla, if_neg Bool.false_ne_true, boardFiling,
      if_pos hcard]
    have htable : tableOf c.ud.jiraTask = .issues := by rw [tableOf, htekla, if_neg Bool.false_ne_true]
    obtain ⟨post, hrow, hpost, hreport⟩ := @rowFiling_eq cfg env .issues
      (withCard env (prepared env c.ud)).jiraTask
    rw [PersistedOnce, htable, hrow]
    refine ⟨_, _, by rw [List.append_assoc, List.cons_append], cardFiling_inserts _, ?_, ?_⟩
    · intro e he
      rw [List.mem_append] at he
      rcases he with he | he
      · exact hpost e he
      · split at he
        · exact jiraFiling_inserts _ e he
        · cases he
    · intro hw
      obtain ⟨t, rest, hpost⟩ := hreport hw
      exact ⟨t, _, by rw [hpost, List.cons_append]⟩

/-- With every call returning, a task for Tekla reaches Jira and no table. -/
theorem tekla_task_unwritten :
    let task : NewTask :=
      { type := of "TEKLA", section_ := of "Проблемы", subj := of "Tekla", description := of "x",
        consumerName := of "A" }
    let c : Chat := ⟨{chatUserTgId := 1, chatUserTgName := [], chatUserFirstName := [], jiraTask := task}, {}⟩
    let message : Message := {messageId := 1, from_ := ⟨1, [], of "a"⟩, chat := ⟨1, of "a"⟩}
    ¬PersistedOnce {} .calm c.ud (filings (createNewIssue {} .calm message) c) := by
  intro task c message h
  obtain ⟨pre, post, hes, -⟩ := h
  have hnone : (filings (createNewIssue {} .calm message) c).all fun e => !e.isInsert := by
    rw [filings_createNewIssue]
    decide +kernel
  rw [hes, List.all_append, List.all_cons] at hnone
  simp [Effect.isInsert] at hnone

end Chanserv
