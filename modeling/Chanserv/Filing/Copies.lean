import Chanserv.Bot.MyIssues
import Chanserv.Filing.Payloads
import Chanserv.Filing.Script
import Chanserv.Text.Edges

/-! The three copies of a task.

The task is escaped once before it is filed, and each copy then has a writing of
its own: the row is bound as it stands, the card is escaped a second time and
its braces get a backslash, the Jira issue is decoded to what the user wrote.
`copies_agree` says for which tasks the three still hold the same texts. -/
namespace Chanserv
open Text Program

/-! ### The card as it is read -/

/-- A brace on a card has a backslash before it. -/
def brace (c : Char) : Text := if c = '{' then ['\\', '{'] else [c]

/-- What a reader of the card sees of a text. -/
def shown (t : Text) : Text := t.flatMap brace

@[simp] theorem shown_nil : shown [] = [] := rfl

@[simp] theorem shown_cons (c : Char) (t : Text) : shown (c :: t) = brace c ++ shown t := rfl

@[simp] theorem shown_append (a b : Text) : shown (a ++ b) = shown a ++ shown b := List.flatMap_append

theorem brace_of_ne {c : Char} (h : c ≠ '{') : brace c = [c] := if_neg h

theorem shown_of_notMem {t : Text} (h : '{' ∉ t) : shown t = t := by
  induction t with
  | nil => rfl
  | cons c t ih =>
    rw [List.mem_cons, not_or] at h
    rw [shown_cons, brace_of_ne (Ne.symm h.1), ih h.2, List.singleton_append]

theorem replaceBraces_of_notMem {t : Text} (h : '{' ∉ t) : replaceBraces t = t := by
  induction t with
  | nil => rfl
  | cons c t ih =>
    rw [List.mem_cons, not_or] at h
    have hrest : replaceBraces t = t := ih h.2
    rw [replaceBraces, List.flatMap_cons, if_neg (Ne.symm h.1), ← replaceBraces, hrest,
      List.singleton_append]

/-- No escape has a brace but that of the brace. -/
theorem Escape.brace_notMem {c : Char} {e : Text} (h : Escape c e) (hc : c ≠ '{') : '{' ∉ e := by
  cases h with
  | @short d h hd =>
    have hne : '{' ≠ d := by
      rintro rfl
      cases h
    simp [hne]
  | @hex a b m n ha hb hcode hlow =>
    have hdigit : Json.hexValue '{' = none := by decide
    have hne {d : Char} {v : Nat} (hd : Json.hexValue d = some v) : '{' ≠ d := by
      rintro rfl
      rw [hdigit] at hd
      cases hd
    simp [hne ha.1, hne hb.1]
  | plain h => simpa using Ne.symm hc

/-- One character of a card's text. -/
def cardChar (c : Char) : Text := replaceBraces (escapeStringChar c)

theorem cardText_eq (t : Text) : cardText t = t.flatMap cardChar := by
  rw [cardText, escapeString, replaceBraces, List.flatMap_assoc]
  rfl

theorem spells_cardChar : Json.Spells cardChar brace := by
  intro c ts acc
  by_cases hc : c = '{'
  · subst hc
    have hchar : cardChar '{' = ['\\', '\\', '{'] := by decide
    have hbrace : brace '{' = ['\\', '{'] := by decide
    rw [hchar, hbrace]
    simp [Json.step, Json.letterEscape]
  · have hescape := escape_escapeStringChar c
    rw [cardChar, replaceBraces_of_notMem (hescape.brace_notMem hc), brace_of_ne hc]
    exact run_escape hescape ts acc

theorem run_cardText (t : Text) (ts : List Json.Token) (acc : Text) :
    Json.run ⟨ts, .str acc⟩ (cardText t) = some ⟨ts, .str (acc ++ shown t)⟩ := by
  rw [cardText_eq, Json.run_spelled spells_cardChar]
  rfl

def cardDocument (name desc : Text) : Json.Value :=
  .object [(of "name", .string name), (of "desc", .string desc)]

def cardHead : Text := of " \x7b \"name\":\""
def cardToDesc : Text := of ", \"desc\": \""
def cardTail : Text := of " \x7d "

theorem cardBody_eq (name desc : Text) :
    cardBody name desc =
      cardHead ++ (cardText name ++ ('"' :: cardToDesc ++ (cardText desc ++ '"' :: cardTail))) := by
  have hdesc : '"' :: cardToDesc = of "\", \"desc\": \"" := by decide
  have htail : '"' :: cardTail = of "\" \x7d " := by decide
  rw [hdesc, htail]
  simp only [cardBody, cardHead, List.append_assoc]

theorem run_card_literals :
    Json.run ⟨[], .blank⟩ cardHead = some ⟨[.lbrace, .str (of "name"), .colon], .str []⟩ ∧
      Json.run ⟨[], .blank⟩ cardToDesc = some ⟨[.comma, .str (of "desc"), .colon], .str []⟩ ∧
      Json.run ⟨[], .blank⟩ cardTail = some ⟨[.rbrace], .blank⟩ := by
  decide +kernel

/-- The body of the request is always well formed. -/
theorem parse_cardBody (name desc : Text) :
    Json.parse (cardBody name desc) = some (cardDocument (shown name) (shown desc)) := by
  obtain ⟨hhead, hdesc, htail⟩ := run_card_literals
  have hrun : ∃ ts, Json.run ⟨[], .blank⟩ (cardBody name desc) = some ⟨ts, .blank⟩ ∧
      Json.document ts = some (cardDocument (shown name) (shown desc)) := by
    rw [cardBody_eq, Json.run_append_of_some hhead, Json.run_append_of_some (run_cardText _ _ _),
      Json.run_append_of_some (Json.run_close hdesc _ _), Json.run_append_of_some (run_cardText _ _ _),
      Json.run_close htail]
    exact ⟨_, rfl, rfl⟩
  obtain ⟨ts, hts, hdoc⟩ := hrun
  rw [Json.parse_of_run hts, hdoc]

/-! ### Texts that survive -/

/-- What the row's escape marks. -/
def quoting : Edges.Marking Char where
  mark := '\\'
  marked c := c = '"'
  lost := isControl

/-- What the card's two escapes mark. -/
def bracing : Edges.Marking Char where
  mark := '\\'
  marked c := c = '"' || c = '{'
  lost := isControl

/-- No control character, and between the first and the last character that is no backslash neither
a backslash nor, after that first one, a quote or a brace. -/
def Quotable (t : Text) : Prop := Edges.edged bracing t

instance (t : Text) : Decidable (Quotable t) := inferInstanceAs (Decidable (_ = true))

/-- A text that needs an escape of two letters is one of these, or a control. -/
theorem shortEscape_none {c : Char} (hb : c ≠ '\\') (hq : c ≠ '"') (hc : isControl c = false) :
    shortEscape c = none := by
  have hlow {d : Char} (hd : isControl d) : c ≠ d := by
    rintro rfl
    rw [hc] at hd
    cases hd
  have hcode : 0x20 ≤ c.toNat := by
    simp only [isControl, Bool.or_eq_false_iff, decide_eq_false_iff_not] at hc
    omega
  rw [shortEscape, if_neg hq, if_neg hb, if_neg (by omega), if_neg (by omega), if_neg (hlow (by decide)),
    if_neg (hlow (by decide)), if_neg (hlow (by decide))]

theorem escapeChar_plain {c : Char} (hb : c ≠ '\\') (hc : isControl c = false) (hq : c ≠ '"') :
    escapeChar c = [c] := by
  rw [escapeChar, shortEscape_none hb hq hc]
  exact if_neg (by simp [hc])

theorem isControl_hexDigit : ∀ n < 16, isControl (hexDigit n) = false := by
  decide

theorem isControl_shortEscape {c : Char} {e : Text} (h : shortEscape c = some e) :
    ∀ d ∈ e, isControl d = false := by
  unfold shortEscape at h
  repeat'
    split at h
    · cases h
      simp [isControl]
  cases h

/-- An escape has no control in it. -/
theorem isControl_escapeChar (c : Char) : ∀ d ∈ escapeChar c, isControl d = false := by
  unfold escapeChar
  split
  · next e h => exact isControl_shortEscape h
  · split
    · next hc =>
      simp only [isControl, Bool.or_eq_true, decide_eq_true_eq] at hc
      have hhigh := isControl_hexDigit (c.toNat / 16) (by omega)
      have hlow := isControl_hexDigit (c.toNat % 16) (by omega)
      have hprefix : ∀ d ∈ ['\\', 'u', '0', '0'], isControl d = false := by simp [isControl]
      intro d hd
      rw [hexEscape] at hd
      simp only [List.mem_cons, List.not_mem_nil, or_false] at hd
      rcases hd with hd | hd | hd | hd | rfl | rfl
      · exact hprefix d (by simp [hd])
      · exact hprefix d (by simp [hd])
      · exact hprefix d (by simp [hd])
      · exact hprefix d (by simp [hd])
      · exact hhigh
      · exact hlow
    · next hc => simpa using hc

theorem escapes_row : Edges.Escapes quoting escapeChar where
  mark := by decide
  marked c _ _ hm := by
    have hc : c = '"' := by simpa [quoting] using hm
    subst hc
    decide
  plain c hb hc hm := escapeChar_plain hb hc (by simpa [quoting] using hm)
  kept := isControl_escapeChar

/-- A character that is escaped for the row, and that for the card. -/
def twice (c : Char) : Text := shown (escapeChar c)

theorem shown_escaped (t : Text) : shown (escapeJsonEntireText t) = t.flatMap twice := by
  rw [shown, escapeJsonEntireText, List.flatMap_assoc]
  rfl

theorem escapes_card : Edges.Escapes bracing twice where
  mark := by decide
  marked c _ _ hm := by
    have hc : c = '"' ∨ c = '{' := by simpa [bracing] using hm
    rcases hc with rfl | rfl <;> decide
  plain c hb hc hm := by
    have hne : c ≠ '"' ∧ c ≠ '{' := by simpa [bracing] using hm
    rw [twice, escapeChar_plain hb hc hne.1, shown_cons, brace_of_ne hne.2]
    rfl
  kept c d hd := by
    obtain ⟨a, ha, hda⟩ := List.mem_flatMap.mp hd
    have hcontrol := isControl_escapeChar c a ha
    by_cases hbrace : a = '{'
    · subst hbrace
      have hpair : ∀ d ∈ brace '{', isControl d = false := by simp [brace, isControl]
      exact hpair d hda
    · rw [brace_of_ne hbrace, List.mem_singleton] at hda
      rw [hda]
      exact hcontrol

/-- Every brace on a card follows a backslash. -/
theorem shown_chain (t : Text) :
    (shown t).IsChain fun b c => decide (c = '{') → b = '\\' := by
  induction t with
  | nil => exact .nil
  | cons c t ih =>
    have hhead : ∀ d ∈ (shown t).head?, d ≠ '{' := by
      cases t with
      | nil => simp
      | cons d t =>
        rw [shown_cons, brace]
        split
        · simp
        · next hd => simpa using hd
    rw [shown_cons]
    refine List.isChain_append.mpr ⟨?_, ih, fun a _ d hd h => absurd (by simpa using h) (hhead d hd)⟩
    rw [brace]
    split
    · simp
    · exact .singleton c

theorem quotable_of_part {t card : Text} (hrow : t <:+: escapeJsonEntireText t)
    (hcard : t <:+: shown card) : Quotable t := by
  have hedged := (Edges.infix_flatMap_iff escapes_row).mp hrow
  obtain ⟨s, s', hcard⟩ := hcard
  have hchain := shown_chain card
  rw [← hcard] at hchain
  exact Edges.edged_of_chain hchain.left_of_append.right_of_append hedged

theorem Quotable.row {t : Text} (h : Quotable t) : t <:+: escapeJsonEntireText t :=
  (Edges.infix_flatMap_iff escapes_row).mpr (Edges.edged_mono (fun c hc => by simp [bracing, hc]) h)

theorem Quotable.card {t : Text} (h : Quotable t) : t <:+: shown (escapeJsonEntireText t) := by
  rw [shown_escaped]
  exact (Edges.infix_flatMap_iff escapes_card).mpr h

theorem shown_of_tailPlain {t : Text} (h : Edges.tailPlain bracing t) : shown t = t := by
  induction t with
  | nil => rfl
  | cons c t ih =>
    rw [Edges.tailPlain] at h
    split at h
    · next hc =>
      apply shown_of_notMem
      intro hm
      rw [List.mem_cons] at hm
      rcases hm with hm | hm
      · rw [← hm] at hc
        exact absurd hc (by decide)
      · have := List.all_eq_true.mp h _ hm
        exact absurd this (by decide)
    · simp only [Bool.and_eq_true, Bool.not_eq_true', bracing, Bool.or_eq_false_iff,
        decide_eq_false_iff_not] at h
      rw [shown_cons, brace_of_ne h.1.2.2, ih h.2]
      rfl

/-- The head of a card is not escaped before, and needs less. -/
theorem Quotable.raw {t : Text} (h : Quotable t) : ∃ n, shown t = List.replicate n '\\' ++ t := by
  unfold Quotable at h
  induction t with
  | nil => exact ⟨0, rfl⟩
  | cons c t ih =>
    rw [Edges.edged] at h
    split at h
    · next hc =>
      obtain ⟨n, hn⟩ := ih h
      have hc : c = '\\' := hc
      refine ⟨n, ?_⟩
      rw [shown_cons, hc, hn, Edges.replicate_append_cons, List.replicate_succ]
      rfl
    · rw [Bool.and_eq_true] at h
      rw [shown_cons, shown_of_tailPlain h.2, brace]
      split
      · next hc => exact ⟨1, by rw [hc]; rfl⟩
      · exact ⟨0, rfl⟩

/-! ### What each request carries -/

/-- Every text of the task that a request writes is found in it as it was. The summary of the
Jira issue may be shortened, and the row is shown to a contractor as the message says. -/
def Carries (task : NewTask) : Effect → Prop
  | .createNewCard _ body => ∃ name desc, Json.parse body = some (cardDocument name desc) ∧
      (task.description <:+: desc ∧ task.consumerName <:+: desc ∧ task.category <:+: desc) ∧
      task.subj <:+: name ∧ task.project <:+: name
  | .insertIssue _ row =>
      (task.description <:+: row.description ∧ task.consumerName <:+: row.consumerName ∧
        task.category <:+: row.category) ∧
      (task.subj <:+: row.theme ∧ task.project <:+: row.project) ∧
      ∀ n id, task.description <:+: builtMsg (issueOfRow n {row with id := id})
  | .createTask body => ∃ fields desc s p,
      (Json.parse body).bind (Json.Value.at · (of "fields")) = some fields ∧
      ((fields.at (of "description")).bind Json.Value.toText = some desc ∧
        task.description <:+: desc ∧ task.consumerName <:+: desc) ∧
      (fields.at (of "summary")).bind Json.Value.toText = some (summaryText s p) ∧
      Shortened task.subj s ∧ Shortened task.project p
  | _ => True

/-- All copies that are attempted carry the task the dialog recorded. -/
def CopiesAgree (u : UserDispatcher) : Prop :=
  ∀ (cfg : Config) (env : CreateIssueEnv) (message : Message) (sh : Shared),
    ∀ e ∈ filings (createNewIssue cfg env message) ⟨u, sh⟩, Carries u.jiraTask e

/-- The message about an issue ends with its description. -/
theorem infix_builtMsg (issue : PgdbIssue) : issue.description <:+: builtMsg issue := by
  rw [builtMsg]
  split <;> exact (List.suffix_append _ _).isInfix

section
variable {cfg : Config} {env : CreateIssueEnv} {u : UserDispatcher}

/-- The two texts a card is made of, as they are read. -/
theorem shown_card (username : Text) :
    shown (cardName (prepared env u).jiraTask) =
        shown (prepared env u).jiraTask.section_ ++ of " " ++ shown (escapeJsonEntireText u.jiraTask.project)
          ++ of " " ++ shown (escapeJsonEntireText u.jiraTask.subj) ++ of " " ++ shown env.creationDate ∧
      shown (cardDescription username u.jiraTask ++ (prepared env u).jiraTask.description) =
        shown (of "https://t.me/" ++ username ++ of " ") ++ shown u.jiraTask.consumerName ++ of "\n" ++
          (if u.jiraTask.category ≠ [] then of "Категория: " ++ shown u.jiraTask.category ++ of "\n"
            else []) ++ shown (escapeJsonEntireText u.jiraTask.description) := by
  have hblank : shown (of " ") = of " " := by decide
  have hbreak : shown (of "\n") = of "\n" := by decide
  have hcategory : shown (of "Категория: ") = of "Категория: " := by decide +kernel
  constructor
  · simp only [cardName, shown_append, hblank]
    rfl
  · rw [cardDescription]
    split
    · simp only [shown_append, hbreak, hcategory]
      rfl
    · simp only [shown_append, hbreak, shown_nil]
      rfl

/-- The five texts of a task survive the row and the card. -/
def QuotableTask (task : NewTask) : Prop :=
  (Quotable task.description ∧ Quotable task.consumerName ∧ Quotable task.category) ∧
    Quotable task.subj ∧ Quotable task.project

instance (task : NewTask) : Decidable (QuotableTask task) := inferInstanceAs (Decidable (_ ∧ _))

theorem Quotable.infix_raw {t : Text} (h : Quotable t) : t <:+: shown t := by
  obtain ⟨n, hn⟩ := h.raw
  rw [hn]
  exact (List.suffix_append _ _).isInfix

theorem carries_card (h : QuotableTask u.jiraTask) (username listId : Text) :
    Carries u.jiraTask (.createNewCard listId (cardBody (cardName (prepared env u).jiraTask)
      (cardDescription username u.jiraTask ++ (prepared env u).jiraTask.description))) := by
  obtain ⟨⟨hdescription, hconsumer, hcategory⟩, hsubj, hproject⟩ := h
  obtain ⟨hname, hdesc⟩ := @shown_card env u username
  refine ⟨_, _, parse_cardBody _ _, ?_, ?_⟩
  · rw [hdesc]
    refine ⟨hdescription.card.trans (List.suffix_append _ _).isInfix, ?_, ?_⟩
    · rw [List.append_assoc, List.append_assoc]
      exact hconsumer.infix_raw.trans (List.infix_append _ _ _)
    · by_cases hempty : u.jiraTask.category = []
      · rw [hempty]
        exact List.nil_infix
      · rw [if_pos hempty]
        refine hcategory.infix_raw.trans (.trans ?_ (List.infix_append _ _ _))
        exact List.infix_append _ _ _
  · rw [hname]
    constructor
    · rw [List.append_assoc _ (of " ") (shown env.creationDate)]
      exact hsubj.card.trans (List.infix_append _ _ _)
    · rw [List.append_assoc, List.append_assoc, List.append_assoc]
      exact hproject.card.trans (List.infix_append _ _ _)

theorem carries_row (h : QuotableTask u.jiraTask) (table : IssueTable) :
    Carries u.jiraTask (.insertIssue table (rowOfTask (withCard env (prepared env u)).jiraTask)) := by
  obtain ⟨⟨hdescription, hconsumer, hcategory⟩, hsubj, hproject⟩ := h
  refine ⟨⟨hdescription.row, hconsumer.row, hcategory.row⟩, ⟨hsubj.row, hproject.row⟩, ?_⟩
  intro n id
  exact hdescription.row.trans
    (infix_builtMsg (issueOfRow n {rowOfTask (withCard env (prepared env u)).jiraTask with id := id}))

/-- What the card and the row both carry is quotable. -/
theorem quotable_of_carries {username listId : Text} {table : IssueTable}
    (hcard : Carries u.jiraTask (.createNewCard listId (cardBody (cardName (prepared env u).jiraTask)
      (cardDescription username u.jiraTask ++ (prepared env u).jiraTask.description))))
    (hrow : Carries u.jiraTask
      (.insertIssue table (rowOfTask (withCard env (prepared env u)).jiraTask))) :
    QuotableTask u.jiraTask := by
  obtain ⟨name, desc, hparse, ⟨hdescription, hconsumer, hcategory⟩, hsubj, hproject⟩ := hcard
  obtain ⟨⟨hdescription', hconsumer', hcategory'⟩, ⟨hsubj', hproject'⟩, -⟩ := hrow
  rw [parse_cardBody, Option.some.injEq] at hparse
  simp only [cardDocument, Json.Value.object.injEq, List.cons.injEq, Prod.mk.injEq, true_and,
    Json.Value.string.injEq, and_true] at hparse
  obtain ⟨rfl, rfl⟩ := hparse
  exact ⟨⟨quotable_of_part hdescription' hdescription, quotable_of_part hconsumer' hconsumer,
    quotable_of_part hcategory' hcategory⟩, quotable_of_part hsubj' hsubj,
    quotable_of_part hproject' hproject⟩

/-- The Jira issue carries the task exactly if its body is well formed. -/
theorem carries_task_iff (hlink : isUsername u.jiraTask.consumerTgUsernameLink) :
    Carries u.jiraTask
        (.createTask (createTaskBody (prepared env u).jiraTask (projName (prepared env u).jiraTask))) ↔
      cutClean 100 u.jiraTask.subj ∧ cutClean 100 u.jiraTask.project := by
  let v : UserDispatcher :=
    { u with
      createdCardId := []
      jiraTask := {u.jiraTask with creationDate := env.creationDate} }
  have hproj := isUsername_projName (prepared env u).jiraTask
  constructor
  · rintro ⟨fields, desc, s, p, hfields, -⟩
    by_contra h
    have htorn := (not_and_or.mp h).imp eq_false_of_ne_true eq_false_of_ne_true
    have hnone := parse_createTaskBody_torn (u := v) hproj htorn
    have hbody : createTaskBody (prepared env u).jiraTask (projName (prepared env u).jiraTask) =
        createTaskBody (escapeAll v).jiraTask (projName (prepared env u).jiraTask) := rfl
    rw [hbody, hnone] at hfields
    cases hfields
  · rintro ⟨hsubj, hproject⟩
    obtain ⟨s, p, hparse, hs, hp, -⟩ := parse_createTaskBody (u := v) hproj hlink hsubj hproject
    have hbody : createTaskBody (prepared env u).jiraTask (projName (prepared env u).jiraTask) =
        createTaskBody (escapeAll v).jiraTask (projName (prepared env u).jiraTask) := rfl
    refine ⟨_, _, s, p, by rw [hbody, hparse]; rfl, ⟨rfl, ?_, ?_⟩, rfl, hs, hp⟩
    · rw [List.append_assoc, List.append_assoc, List.append_assoc]
      exact (List.prefix_append _ _).isInfix
    · rw [List.append_assoc _ (of "\nTelegram: https://t.me/")]
      exact List.infix_append _ _ _

end

/-! ### The copies -/

/-- When every call returns, everything is filed. -/
theorem calm_requested (u : UserDispatcher) : Requested {} .calm u := by
  have hstaff : StaffSpared {} CreateIssueEnv.calm.staff := fun i hi => absurd hi (Nat.not_lt_zero i)
  refine ⟨trivial, fun _ => ⟨?_, .inl ⟨rfl, rfl⟩, fun _ _ _ => trivial, hstaff⟩, trivial, fun _ => trivial⟩
  decide

theorem mem_task_calm (message : Message) (u : UserDispatcher) :
    .createTask (createTaskBody (prepared .calm u).jiraTask (projName (prepared .calm u).jiraTask)) ∈
      filing {} .calm message u := by
  obtain ⟨board, hfiling, -⟩ := filing_eq {} .calm message u
  rw [hfiling, if_pos (calm_requested u)]
  exact List.mem_append_right _ (List.mem_cons_self ..)

theorem mem_board_calm (message : Message) {u : UserDispatcher} (h : isTekla u.jiraTask = false) :
    .createNewCard (Config.distributionList {}) (cardBody (cardName (prepared .calm u).jiraTask)
        (cardDescription message.chat.username u.jiraTask ++ (prepared .calm u).jiraTask.description)) ∈
        filing {} .calm message u ∧
      .insertIssue .issues (rowOfTask (withCard .calm (prepared .calm u)).jiraTask) ∈
        filing {} .calm message u := by
  have hprepared : isTekla (prepared .calm u).jiraTask = false := h
  have hcard : CardSafe .calm := ((calm_requested u).2.1 h).1
  have hacc : CreateIssueEnv.calm.accepted.Normal := trivial
  rw [filing, if_pos hacc, preparedFiling, hprepared, if_neg Bool.false_ne_true, boardFiling, if_pos hcard]
  constructor
  · exact List.mem_append_left _ (List.mem_append_left _ (List.mem_cons_self ..))
  · exact List.mem_append_left _ (List.mem_append_right _ (List.mem_cons_self ..))

section
variable {u : UserDispatcher}

theorem CopiesAgree.calm (h : CopiesAgree u) :
    ∀ e ∈ filing {} .calm {messageId := 1, from_ := ⟨1, [], []⟩, chat := ⟨1, []⟩} u, Carries u.jiraTask e := by
  rw [← filings_createNewIssue {} .calm _ ⟨u, {}⟩]
  exact h {} .calm _ {}

theorem CopiesAgree.quotable (h : CopiesAgree u) (htekla : isTekla u.jiraTask = false) :
    QuotableTask u.jiraTask := by
  obtain ⟨hcard, hrow⟩ := mem_board_calm _ htekla
  exact quotable_of_carries (h.calm _ hcard) (h.calm _ hrow)

end

/-- The copies of a task agree exactly if the body of its Jira issue is well formed and, unless it
is one for Tekla, which is neither put on the board nor into the table, its texts are quotable. -/
theorem copies_agree (u : UserDispatcher) (hlink : isUsername u.jiraTask.consumerTgUsernameLink) :
    CopiesAgree u ↔ (cutClean 100 u.jiraTask.subj ∧ cutClean 100 u.jiraTask.project) ∧
      (isTekla u.jiraTask = false → QuotableTask u.jiraTask) := by
  constructor
  · intro h
    exact ⟨(carries_task_iff hlink).mp (h.calm _ (mem_task_calm _ u)), h.quotable⟩
  · rintro ⟨hclean, hquotable⟩ cfg env message sh e he
    obtain ⟨board, hfiling, hboard⟩ := filing_eq cfg env message u
    rw [filings_createNewIssue, hfiling, List.mem_append] at he
    rcases he with he | he
    · obtain ⟨htekla, he⟩ := hboard e he
      rw [boardFiling, List.mem_append] at he
      rcases he with he | he
      · rcases mem_cardFiling he with rfl | ⟨info, rfl⟩
        · exact carries_card (hquotable htekla) _ _
        · trivial
      · split at he
        · rcases mem_rowFiling he with rfl | ⟨info, -, rfl⟩
          · exact carries_row (hquotable htekla) _
          · trivial
        · cases he
    · split at he
      · rcases mem_jiraFiling he with rfl | ⟨path, key, rfl⟩ | ⟨info, rfl⟩
        · exact (carries_task_iff hlink).mpr hclean
        · trivial
        · trivial
      · cases he

/-- Quotes around a whole text, and a backslash at its end, do no harm. -/
theorem copies_agree_path :
    CopiesAgree
      { chatUserTgId := 1, chatUserTgName := [], chatUserFirstName := []
        jiraTask :=
          { type := of "BIMTASK", subj := of "Вид", project := of "\"A-1", description := of "Диск Z:\\"
            consumerName := of "Иван", consumerTgUsernameLink := of "user_1" } } := by
  apply (copies_agree _ (by decide)).mpr
  refine ⟨by decide +kernel, fun _ => ?_⟩
  decide +kernel

/-- A description of two lines: the row holds a backslash and an `n` in place of the line break. -/
theorem line_break_spoils_copies :
    ¬CopiesAgree
      { chatUserTgId := 1, chatUserTgName := [], chatUserFirstName := []
        jiraTask :=
          { type := of "BIMTASK", subj := of "Вид", project := of "A", description := of "a\nb"
            consumerName := of "Иван", consumerTgUsernameLink := of "user_1" } } := by
  intro h
  have hquotable := (h.quotable (by decide +kernel)).1.1
  exact absurd hquotable (by decide +kernel)

end Chanserv
