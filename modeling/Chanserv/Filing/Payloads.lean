import Chanserv.Filing.Escapes
import Chanserv.Bot.CreateIssue

/-! The bodies of the requests to Trello and Jira, read as JSON. -/
namespace Chanserv
open Text

/-! ### Shortened texts -/

/-- The text, or a beginning of it and dots; half a character at the cut is a question mark. -/
def Shortened (x s : Text) : Prop :=
  s = x ∨ ∃ p half, p <+: x ∧ (half = [] ∨ half = [replacement]) ∧ s = p ++ half ++ of "..."

theorem utf16Length_le_escaped (t : Text) : utf16Length t ≤ utf16Length (escapeJsonEntireText t) := by
  induction t with
  | nil => simp
  | cons c t ih =>
    have hc := (escape_escapeChar c).le
    have hesc : escapeJsonEntireText (c :: t) = escapeChar c ++ escapeJsonEntireText t := rfl
    rw [hesc, utf16Length_cons, utf16Length_append]
    omega

theorem run_truncated {w : Nat} {x : Text} (h : cutClean w x) :
    ∃ s, Shortened x s ∧ utf16Length s ≤ w + 3 ∧ ∀ ts acc,
      Json.run ⟨ts, .str acc⟩ (truncateMsgFromUser (escapeJsonEntireText x) w) =
        some ⟨ts, .str (acc ++ s)⟩ := by
  by_cases hlong : utf16Length (escapeJsonEntireText x) > w
  · obtain ⟨p, half, hp, hhalf, htake⟩ := takeUnits_clean h
    have hplain : ∀ c ∈ half ++ of "...", Json.Unescaped c := by
      rcases hhalf with rfl | rfl <;> simp [Json.Unescaped, of, replacement]
    refine ⟨p ++ half ++ of "...", .inr ⟨p, half, hp, hhalf, rfl⟩, ?_, fun ts acc => ?_⟩
    · have hw := utf16Length_takeUnits_le w (escapeJsonEntireText x)
      have hle := utf16Length_le_escaped p
      have hdots : utf16Length (of "...") = 3 := by decide
      rw [htake, utf16Length_append] at hw
      rw [utf16Length_append, utf16Length_append, hdots]
      omega
    · rw [truncateMsgFromUser, if_pos hlong, htake, List.append_assoc,
        Json.run_append_of_some (run_escaped p ts acc), Json.run_unescaped hplain, List.append_assoc,
        List.append_assoc]
  · refine ⟨x, .inl rfl, ?_, fun ts acc => ?_⟩
    · have := utf16Length_le_escaped x
      omega
    · rw [truncateMsgFromUser, if_neg hlong, run_escaped]

theorem run_truncated_torn {w : Nat} {x : Text} (h : cutClean w x = false) (ts : List Json.Token)
    (acc : Text) :
    Json.run ⟨ts, .str acc⟩ (truncateMsgFromUser (escapeJsonEntireText x) w) = none := by
  obtain ⟨hlong, p, c, k, hpos, hk, htake⟩ := takeUnits_torn h
  have htorn := run_torn (escape_escapeChar c) hpos hk ts (acc ++ p) []
  rw [truncateMsgFromUser, if_pos hlong, htake, List.append_assoc,
    Json.run_append_of_some (run_escaped p ts acc)]
  rwa [List.append_nil] at htorn

/-! ### The Jira task -/

/-- Letters, digits and underscores, of which Telegram makes usernames. -/
def isUsername (t : Text) : Bool := t.all fun c => c.isAlphanum || c = '_'

theorem isAlphanum_control : ∀ n < 32, (Char.ofNat n).isAlphanum = false := by decide

theorem unescaped_of_username {t : Text} (h : isUsername t) : ∀ c ∈ t, Json.Unescaped c := by
  intro c hc
  have hcode {d : Char} (hd : c = d) : d.isAlphanum || d = '_' := hd ▸ List.all_eq_true.mp h c hc
  have halnum := List.all_eq_true.mp h c hc
  refine ⟨fun hq => absurd (hcode hq) (by decide), fun hb => absurd (hcode hb) (by decide), ?_⟩
  rw [Bool.or_eq_true, decide_eq_true_eq] at halnum
  rcases halnum with ha | rfl
  · show 32 ≤ c.toNat
    by_contra hlow
    have hcontrol := isAlphanum_control c.toNat (by omega)
    rw [Char.ofNat_toNat, ha] at hcontrol
    cases hcontrol
  · decide

/-- The document the body of the request should be. -/
def taskDocument (task : NewTask) (projectName summary : Text) : Json.Value :=
  .object [(of "fields", .object
    [ (of "project", .object [(of "key", .string projectName)]),
      (of "issuetype", .object [(of "name", .string (of "Задача"))]),
      (of "summary", .string summary),
      (of "labels", .array
        [ .string (of "Секция:" ++ task.section_.filter (· ≠ ' ')),
          .string (of "https://t.me/" ++ task.consumerTgUsernameLink) ]),
      (of "description", .string
        (task.description ++ of "\n\n--   \nC уважением,\n" ++ task.consumerName ++
          of "\nTelegram: https://t.me/" ++ task.consumerTgUsernameLink)) ])]

def summaryText (s p : Text) : Text := s ++ of "; Проект: " ++ p

/-! The literals of the body, each from the quote that ends a text on. -/

def taskHead : Text := of "\x7b \"fields\": \x7b \"project\" : \x7b \"key\": \""
def taskToSummary : Text :=
  of " \x7d, \"issuetype\" : \x7b \"name\": \"Задача\" \x7d,\n                                     \"summary\" : \""
def taskToSection : Text := of ", \"labels\" : [\"Секция:"
def taskToLink : Text := of ", \"https://t.me/"
def taskToDescription : Text :=
  of "],\n                                      \"description\" : \""
def taskTail : Text := of "\x7d\x7d"

theorem createTaskBody_escaped (u : UserDispatcher) (projectName : Text) :
    createTaskBody (escapeAll u).jiraTask projectName =
      taskHead ++ (projectName ++ ('"' :: taskToSummary ++
        (truncateMsgFromUser (escapeJsonEntireText u.jiraTask.subj) 100 ++
        (escapeJsonEntireText (of "; Проект: ") ++
        (truncateMsgFromUser (escapeJsonEntireText u.jiraTask.project) 100 ++
        ('"' :: taskToSection ++ (escapeJsonEntireText (u.jiraTask.section_.filter (· ≠ ' ')) ++
        ('"' :: taskToLink ++ (u.jiraTask.consumerTgUsernameLink ++
        ('"' :: taskToDescription ++ (escapeJsonEntireText u.jiraTask.description ++
        (escapeJsonEntireText (of "\n\n--   \nC уважением,\n") ++
        (escapeJsonEntireText u.jiraTask.consumerName ++
        (escapeJsonEntireText (of "\nTelegram: https://t.me/") ++
        (u.jiraTask.consumerTgUsernameLink ++ '"' :: taskTail))))))))))))))) := by
  have hseparator : escapeJsonEntireText (of "; Проект: ") = of "; Проект: " := by decide +kernel
  have hgreeting : escapeJsonEntireText (of "\n\n--   \nC уважением,\n") =
      of "\\n\\n--   \\nC уважением,\\n" := by decide +kernel
  have htelegram : escapeJsonEntireText (of "\nTelegram: https://t.me/") =
      of "\\nTelegram: https://t.me/" := by decide +kernel
  have hsummary : '"' :: taskToSummary = of "\" \x7d, \"issuetype\" : \x7b \"name\": \"Задача\" \x7d,\n                                     \"summary\" : \"" := by
    decide +kernel
  have hsection : '"' :: taskToSection = of "\", \"labels\" : [\"Секция:" := by decide +kernel
  have hlink : '"' :: taskToLink = of "\", \"https://t.me/" := by decide +kernel
  have hdescription : '"' :: taskToDescription =
      of "\"],\n                                      \"description\" : \"" := by decide +kernel
  have htail : '"' :: taskTail = of "\"\x7d\x7d" := by decide +kernel
  rw [hseparator, hgreeting, htelegram, hsummary, hsection, hlink, hdescription, htail]
  simp only [createTaskBody, escapeAll, taskHead, List.append_assoc]

/-- The tokens a reader makes of the literals. -/
theorem run_task_literals :
    Json.run ⟨[], .blank⟩ taskHead =
        some ⟨[.lbrace, .str (of "fields"), .colon, .lbrace, .str (of "project"), .colon, .lbrace,
          .str (of "key"), .colon], .str []⟩ ∧
      Json.run ⟨[], .blank⟩ taskToSummary =
        some ⟨[.rbrace, .comma, .str (of "issuetype"), .colon, .lbrace, .str (of "name"), .colon,
          .str (of "Задача"), .rbrace, .comma, .str (of "summary"), .colon], .str []⟩ ∧
      Json.run ⟨[], .blank⟩ taskToSection =
        some ⟨[.comma, .str (of "labels"), .colon, .lbracket], .str (of "Секция:")⟩ ∧
      Json.run ⟨[], .blank⟩ taskToLink = some ⟨[.comma], .str (of "https://t.me/")⟩ ∧
      Json.run ⟨[], .blank⟩ taskToDescription =
        some ⟨[.rbracket, .comma, .str (of "description"), .colon], .str []⟩ ∧
      Json.run ⟨[], .blank⟩ taskTail = some ⟨[.rbrace, .rbrace], .blank⟩ := by
  decide +kernel

section
variable {u : UserDispatcher} {projectName : Text}

theorem parse_createTaskBody (hproj : isUsername projectName)
    (hlink : isUsername u.jiraTask.consumerTgUsernameLink) (hsubj : cutClean 100 u.jiraTask.subj)
    (hproject : cutClean 100 u.jiraTask.project) :
    ∃ s p, Json.parse (createTaskBody (escapeAll u).jiraTask projectName) =
        some (taskDocument u.jiraTask projectName (summaryText s p)) ∧
      Shortened u.jiraTask.subj s ∧ Shortened u.jiraTask.project p ∧
      utf16Length (summaryText s p) ≤ 255 := by
  obtain ⟨s, hs, hslen, hsrun⟩ := run_truncated hsubj
  obtain ⟨p, hp, hplen, hprun⟩ := run_truncated hproject
  obtain ⟨hhead, hsummary, hsection, hlabel, hdescription, htail⟩ := run_task_literals
  refine ⟨s, p, ?_, hs, hp, ?_⟩
  · have hlinkrun := Json.run_unescaped (unescaped_of_username hlink)
    have hprojrun := Json.run_unescaped (unescaped_of_username hproj)
    have hrun : ∃ ts, Json.run ⟨[], .blank⟩ (createTaskBody (escapeAll u).jiraTask projectName) =
        some ⟨ts, .blank⟩ ∧ Json.document ts =
          some (taskDocument u.jiraTask projectName (summaryText s p)) := by
      rw [createTaskBody_escaped, Json.run_append_of_some hhead,
        Json.run_append_of_some (hprojrun _ _), Json.run_append_of_some (Json.run_close hsummary _ _),
        Json.run_append_of_some (hsrun _ _), Json.run_append_of_some (run_escaped _ _ _),
        Json.run_append_of_some (hprun _ _), Json.run_append_of_some (Json.run_close hsection _ _),
        Json.run_append_of_some (run_escaped _ _ _), Json.run_append_of_some (Json.run_close hlabel _ _),
        Json.run_append_of_some (hlinkrun _ _),
        Json.run_append_of_some (Json.run_close hdescription _ _),
        Json.run_append_of_some (run_escaped _ _ _), Json.run_append_of_some (run_escaped _ _ _),
        Json.run_append_of_some (run_escaped _ _ _), Json.run_append_of_some (run_escaped _ _ _),
        Json.run_append_of_some (hlinkrun _ _), Json.run_close htail]
      exact ⟨_, rfl, rfl⟩
    obtain ⟨ts, hts, hdoc⟩ := hrun
    rw [Json.parse_of_run hts, hdoc]
  · have hsep : utf16Length (of "; Проект: ") = 10 := by decide
    rw [summaryText, utf16Length_append, utf16Length_append, hsep]
    omega

/-- A torn escape in one of the two shortened texts spoils the whole body. -/
theorem parse_createTaskBody_torn (hproj : isUsername projectName)
    (h : cutClean 100 u.jiraTask.subj = false ∨ cutClean 100 u.jiraTask.project = false) :
    Json.parse (createTaskBody (escapeAll u).jiraTask projectName) = none := by
  obtain ⟨hhead, hsummary, -⟩ := run_task_literals
  have hprojrun := Json.run_unescaped (unescaped_of_username hproj)
  apply Json.parse_of_run_none
  rw [createTaskBody_escaped, Json.run_append_of_some hhead, Json.run_append_of_some (hprojrun _ _),
    Json.run_append_of_some (Json.run_close hsummary _ _)]
  cases hsubj : cutClean 100 u.jiraTask.subj with
  | false => exact Json.run_append_of_none (run_truncated_torn hsubj _ _) _
  | true =>
    have hproject := h.resolve_left (by simp [hsubj])
    obtain ⟨s, -, -, hsrun⟩ := run_truncated hsubj
    rw [Json.run_append_of_some (hsrun _ _), Json.run_append_of_some (run_escaped _ _ _)]
    exact Json.run_append_of_none (run_truncated_torn hproject _ _) _

end

/-- The body is a JSON document with the intended summary, labels and description and no others,
and Jira takes the summary. -/
def WellFormedBody (u : UserDispatcher) : Prop :=
  ∃ s p, Json.parse (createTaskBody (escapeAll u).jiraTask (projName u.jiraTask)) =
      some (taskDocument u.jiraTask (projName u.jiraTask) (summaryText s p)) ∧
    Shortened u.jiraTask.subj s ∧ Shortened u.jiraTask.project p ∧ utf16Length (summaryText s p) ≤ 255

theorem isUsername_projName (task : NewTask) : isUsername (projName task) := by
  unfold projName
  split <;> decide

/-- The body of the request to Jira is well formed exactly if neither the subject nor the
project is cut inside an escape sequence. -/
theorem jira_body_well_formed (u : UserDispatcher) (hlink : isUsername u.jiraTask.consumerTgUsernameLink) :
    WellFormedBody u ↔ cutClean 100 u.jiraTask.subj ∧ cutClean 100 u.jiraTask.project := by
  have hproj := isUsername_projName u.jiraTask
  constructor
  · rintro ⟨s, p, hparse, -⟩
    by_contra h
    have htorn := (not_and_or.mp h).imp eq_false_of_ne_true eq_false_of_ne_true
    rw [parse_createTaskBody_torn hproj htorn] at hparse
    cases hparse
  · rintro ⟨hsubj, hproject⟩
    exact parse_createTaskBody hproj hlink hsubj hproject

theorem jira_body_well_formed_quoted :
    WellFormedBody
      { chatUserTgId := 1, chatUserTgName := [], chatUserFirstName := []
        jiraTask :=
          { subj := of "Не грузится \"вид\"", project := of "A\\B", description := of "x\n{y}"
            consumerTgUsernameLink := of "user_1" } } := by
  apply (jira_body_well_formed _ (by decide)).mpr
  decide +kernel

/-- A quote is the hundredth character of the subject: its backslash is kept, the quote itself is
cut off, and the dots end no escape sequence. -/
theorem quote_spoils_body :
    let u : UserDispatcher :=
      { chatUserTgId := 1, chatUserTgName := [], chatUserFirstName := []
        jiraTask :=
          { type := of "BIMTASK", subj := List.replicate 99 'a' ++ ['"'], project := of "A"
            consumerTgUsernameLink := of "user_1" } }
    Json.parse (createTaskBody (escapeAll u).jiraTask (projName u.jiraTask)) = none ∧ ¬WellFormedBody u := by
  intro u
  have hnone := parse_createTaskBody_torn (u := u) (isUsername_projName u.jiraTask)
    (.inl (by decide +kernel))
  refine ⟨hnone, ?_⟩
  rintro ⟨s, p, hparse, -⟩
  rw [hnone] at hparse
  cases hparse

end Chanserv
