import Chanserv.Filing.Copies

/-! What Trello is told about a card.

A text of the task goes through three rewritings: it is escaped with the task, escaped
again for the card, and its braces get two backslashes each. The last works on escaped
text, where a brace stands only for itself, so that the two backslashes are an escape
of their own wherever they come to stand. -/
namespace Chanserv
open Text Program

section
variable {cfg : Config} {env : CreateIssueEnv} {message : Message} {u : UserDispatcher} {listId body : Text}

/-- A card is created for the task as it was prepared. -/
theorem card_of_filing (h : .createNewCard listId body ∈ filing cfg env message u) :
    listId = cfg.distributionList ∧ body = cardBody (cardName (prepared env u).jiraTask)
      (cardDescription message.chat.username u.jiraTask ++ (prepared env u).jiraTask.description) := by
  obtain ⟨board, hfiling, hboard⟩ := filing_eq cfg env message u
  have hreport {info : Text} {task : NewTask} {list text : Text} :
      .createNewCard list text ≠ supportReport cfg info task := fun heq => by cases heq
  rw [hfiling, List.mem_append] at h
  rcases h with h | h
  · have hmem := (hboard _ h).2
    rw [boardFiling, List.mem_append] at hmem
    rcases hmem with hcard | hrow
    · rcases mem_cardFiling hcard with heq | ⟨info, heq⟩
      · cases heq
        exact ⟨rfl, rfl⟩
      · exact absurd heq hreport
    · split at hrow
      · rcases mem_rowFiling hrow with heq | ⟨info, -, heq⟩
        · cases heq
        · exact absurd heq hreport
      · cases hrow
  · split at h
    · rcases mem_jiraFiling h with heq | ⟨path, key, heq⟩ | ⟨info, heq⟩
      · cases heq
      · cases heq
      · exact absurd heq hreport
    · cases h

/-- **The body of every card is a document of its name and its description**, whatever the user wrote:
as they were passed, but for a backslash before each brace. -/
theorem card_unbroken (c : Chat) (h : .createNewCard listId body ∈ filings (createNewIssue cfg env message) c) :
    ∃ name desc, name = cardName (prepared env c.ud).jiraTask ∧
      desc = cardDescription message.chat.username c.ud.jiraTask ++ (prepared env c.ud).jiraTask.description ∧
      body = cardBody name desc ∧
      Json.parse body = some (.object [(of "name", .string (shown name)), (of "desc", .string (shown desc))]) := by
  rw [filings_createNewIssue] at h
  obtain ⟨-, rfl⟩ := card_of_filing h
  exact ⟨_, _, rfl, rfl, rfl, parse_cardBody _ _⟩

end

/-- Quotes, backslashes and braces next to each other. -/
def tangled : UserDispatcher :=
  { chatUserTgId := 1, chatUserTgName := [], chatUserFirstName := []
    jiraTask :=
      { type := of "BIMTASK", section_ := of "АР", project := of "\\\x7b\"", subj := of "\x7b\\"
        description := of "\x7b\x7b\n\\\"" } }

theorem card_unbroken_tangled : ∃ body,
    .createNewCard [] body ∈ filings (createNewIssue {} .calm {messageId := 1, from_ := ⟨1, [], []⟩, chat := ⟨1, of "ivan"⟩})
        ⟨tangled, {}⟩ ∧
      Json.parse body = some (.object
        [ (of "name", .string (of "АР \\\\\\\x7b\\\" \\\x7b\\\\ 01.01.2025")),
          (of "desc", .string (of "https://t.me/ivan \n\\\x7b\\\x7b\\n\\\\\\\"")) ]) := by
  have hmem := (mem_board_calm {messageId := 1, from_ := ⟨1, [], []⟩, chat := ⟨1, of "ivan"⟩} (u := tangled)
    (by decide)).1
  rw [← filings_createNewIssue {} .calm _ ⟨tangled, {}⟩] at hmem
  obtain ⟨name, desc, hname, hdesc, -, hparse⟩ := card_unbroken ⟨tangled, {}⟩ hmem
  refine ⟨_, hmem, ?_⟩
  have hshown : shown name = of "АР \\\\\\\x7b\\\" \\\x7b\\\\ 01.01.2025" := by
    rw [hname]
    decide +kernel
  have hshown' : shown desc = of "https://t.me/ivan \n\\\x7b\\\x7b\\n\\\\\\\"" := by
    rw [hdesc]
    decide +kernel
  rw [hparse, hshown, hshown']

end Chanserv
