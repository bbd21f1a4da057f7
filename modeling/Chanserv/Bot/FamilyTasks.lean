import Chanserv.Bot.Answers
import Chanserv.Bot.FiledRows

/-! How issues are shown: with the template for families, or with the general one.

The kind of an issue is not stored. The list takes it from the subject, and compares
that with another text than the one the dialog for families gives to its tasks. So
no family is shown as a family; all other issues are shown as what they are. -/
namespace Chanserv
open Text Program

/-- The subject that marks a family for the list. -/
def familyTheme : Text := of "Создание семейства"

def familyMsg (issue : PgdbIssue) : Text :=
  of "ID%: " ++ itoa issue.id ++ of " | " ++ issue.theme ++
    of "\nВыполнение строго в Revit 2022❗" ++ of "\nРаздел: " ++ issue.unit ++
    of "\nКатегория: " ++ issue.category ++ of "\nПуть до тех.док.: " ++ issue.project ++
    of "\nОт кого: " ++ issue.fromWhom ++ of "\nДата создания: " ++ issue.creationDate ++
    of "\nОписание: " ++ issue.description

def generalMsg (issue : PgdbIssue) : Text :=
  of "UIN: " ++ itoa issue.id ++ of "\nРаздел: " ++ issue.unit ++ of "\nТема: " ++ issue.theme ++
    of "\nПроект: " ++ issue.project ++ of "\nОт кого: " ++ issue.fromWhom ++
    of "\nДата создания: " ++ issue.creationDate ++ of "\nОписание: " ++ issue.description

theorem builtMsg_eq (issue : PgdbIssue) :
    builtMsg issue = if issue.theme = familyTheme then familyMsg issue else generalMsg issue := rfl

/-- They differ in the first letter. -/
theorem familyMsg_ne_generalMsg (issue : PgdbIssue) : familyMsg issue ≠ generalMsg issue := by
  obtain ⟨t, hfamily⟩ : ∃ t, familyMsg issue = of "ID%: " ++ t := ⟨_, by simp only [familyMsg, List.append_assoc]; rfl⟩
  obtain ⟨t', hgeneral⟩ : ∃ t, generalMsg issue = of "UIN: " ++ t := ⟨_, by simp only [generalMsg, List.append_assoc]; rfl⟩
  rw [hfamily, hgeneral]
  intro h
  have hhead : some 'I' = some 'U' := congrArg List.head? h
  cases hhead

/-- A task of the dialog for families is shown as one, and a task of another dialog is not, unless its
user gave the subject that marks families. -/
def ShownByKind (d : Dialog) (said : Said) (r : IssueRow) : Prop :=
  ∀ p, if d = .family then builtMsg (issueOfRow p r) = familyMsg (issueOfRow p r)
    else builtMsg (issueOfRow p r) = generalMsg (issueOfRow p r) ∨
      (said.last taskSubjStep3).map cleanLine = some familyTheme

/-! ### The subject of a task -/

/-- The subject of a family is fixed, that of another task is given; the menu for Tekla replaces both. -/
structure Themed (d : Dialog) (said : Said) (t : NewTask) : Prop where
  step : t.stat ∈ d.steps
  family : d = .family → t.subj = of "Создать семейство" ∨ t.subj = of "Tekla"
  given : d ≠ .family → taskSubjStep3 < t.stat →
    (said.last taskSubjStep3).map cleanLine = some t.subj ∨ t.subj = of "Tekla"

section
variable {d : Dialog} {said : Said} {t : NewTask} {text : Text} {stat : Nat}

theorem themed_trackable : Trackable Themed where
  same {d said t t'} h hstat hanswers := by
    have hsubj : t'.subj = t.subj := (List.cons.inj (List.cons.inj (List.cons.inj hanswers).2).2).1
    refine ⟨hstat ▸ h.step, fun hd => ?_, fun hd hpast => ?_⟩
    · rw [hsubj]
      exact h.family hd
    · rw [hsubj]
      exact h.given hd (hstat ▸ hpast)
  hear {d said t} text h := by
    refine ⟨h.step, h.family, fun hd hpast => ?_⟩
    rw [Said.last_append, if_neg (Nat.ne_of_gt hpast)]
    exact h.given hd hpast
  photosDone {d said t} h hstat := by
    refine ⟨?_, h.family, fun hd _ => h.given hd ?_⟩
    · show sharedSeparateTeklaFromBimStep6 ∈ d.steps
      cases d <;> decide
    · rw [hstat]
      decide

/-- The question for the subject records it, the others leave it. -/
theorem question_subj {question : Question} (hq : questionAt stat text = some question) (hd : stat ∈ d.steps) :
    question.next ∈ d.steps ∧
      (d ≠ .family ∧ stat = taskSubjStep3 ∧ question.clean = cleanLine ∧ (∀ v t, (question.record v t).subj = v) ∨
        stat ≠ taskSubjStep3 ∧ (d ≠ .family → taskSubjStep3 < question.next → taskSubjStep3 < stat) ∧
          ∀ v t, (question.record v t).subj = t.subj) := by
  have hmem := mem_questions hq hd
  cases d
  all_goals
    simp only [Dialog.questions, List.mem_cons, List.not_mem_nil, or_false, Prod.mk.injEq] at hmem
  case tekla =>
    rcases hmem with ⟨rfl, rfl⟩ | ⟨rfl, rfl⟩ | ⟨rfl, rfl⟩
    all_goals first
      | exact ⟨by decide, .inl ⟨by decide, rfl, rfl, fun _ _ => rfl⟩⟩
      | exact ⟨by decide, .inr ⟨by decide, by decide, fun _ _ => rfl⟩⟩
  all_goals
    rcases hmem with ⟨rfl, rfl⟩ | ⟨rfl, rfl⟩ | ⟨rfl, rfl⟩ | ⟨rfl, rfl⟩ | ⟨rfl, rfl⟩
    all_goals first
      | exact ⟨by decide, .inl ⟨by decide, rfl, rfl, fun _ _ => rfl⟩⟩
      | exact ⟨by decide, .inr ⟨by decide, by decide, fun _ _ => rfl⟩⟩

theorem Themed.start (d : Dialog) (t : NewTask) : Themed d [] (d.start t) := by
  have hstat : (d.start t).stat = (d.start {}).stat := by cases d <;> rfl
  have hasked : d ≠ .family → ¬taskSubjStep3 < (d.start {}).stat := by cases d <;> decide
  refine ⟨by rw [hstat]; cases d <;> decide, fun hd => ?_, fun hd hpast => ?_⟩
  · subst hd
    exact .inl rfl
  · rw [hstat] at hpast
    exact absurd hpast (hasked hd)

theorem Themed.answer {question : Question} (h : Themed d said t) (hq : questionAt t.stat text = some question)
    (hstat : stat = t.stat ∨ stat = question.next) :
    Themed d (said ++ [(t.stat, text)]) {question.record (question.clean text) t with stat} := by
  obtain ⟨hnext, ⟨hd, hask, hclean, hsubj⟩ | ⟨hother, hpast, hsubj⟩⟩ := question_subj hq h.step
  all_goals
    have hstep : stat ∈ d.steps := by
      rcases hstat with rfl | rfl
      · exact h.step
      · exact hnext
  · refine ⟨hstep, fun hfamily => absurd hfamily hd, fun _ _ => .inl ?_⟩
    rw [Said.last_append, if_pos hask, Option.map_some, hclean]
    exact congrArg some (hsubj _ t).symm
  · refine ⟨hstep, fun hfamily => ?_, fun hd hlater => ?_⟩
    · rw [show ({question.record (question.clean text) t with stat} : NewTask).subj = t.subj from hsubj _ t]
      exact h.family hfamily
    · have hbefore : taskSubjStep3 < t.stat := by
        rcases hstat with rfl | rfl
        · exact hlater
        · exact hpast hd hlater
      rw [Said.last_append, if_neg hother,
        show ({question.record (question.clean text) t with stat} : NewTask).subj = t.subj from hsubj _ t]
      exact h.given hd hbefore

end

section
variable {cfg : Config} {hist : List Handled} {h : Handled} {task : NewTask}

/-- Whatever the updates are. -/
theorem themed_admitted (hist : List Handled) (h : Handled) : h.Admitted Themed cfg hist := fun _ _ _ =>
  { start := fun d _ => Themed.start d _
    answer := fun _ _ _ _ _ _ _ ht hq hstat => ht.answer hq hstat
    menu := fun _ _ _ _ ht => ⟨ht.step, fun _ => .inr rfl, fun _ _ => .inr rfl⟩ }

/-- The subject of a task that is filed. -/
theorem filed_subj (hr : Run cfg hist h.before) (htask : .createNewIssue task ∈ h.effects cfg) :
    ∃ d said, lastDialog cfg h.x.fromId (hist ++ [h]) = some (d, said) ∧
      (d = .family → task.subj = of "Создать семейство" ∨ task.subj = of "Tekla") ∧
      (d ≠ .family → (said.last taskSubjStep3).map cleanLine = some task.subj ∨ task.subj = of "Tekla") := by
  obtain ⟨m, d, said, t, hm, htext, hstat, ht, rfl, hlast⟩ :=
    hr.filedFrom themed_trackable (fun earlier h _ _ => themed_admitted earlier h) Themed.step htask
  refine ⟨d, _, hlast, ht.family, fun hd => ?_⟩
  rw [Said.last_append, hstat, if_neg (by decide)]
  exact ht.given hd (by rw [hstat]; decide)

end

/-! ### The template -/

theorem escapeChar_cases (c : Char) : escapeChar c = [c] ∨ '\\' ∈ escapeChar c := by
  unfold escapeChar
  cases he : shortEscape c with
  | some e =>
    refine .inr ?_
    unfold shortEscape at he
    dsimp only
    repeat' split at he
    all_goals cases he
    all_goals simp
  | none =>
    dsimp only
    split
    · exact .inr (by simp [hexEscape])
    · exact .inl rfl

/-- A text without backslashes is the escape of itself only. -/
theorem eq_of_escaped {t m : Text} (h : escapeJsonEntireText t = m) (hm : '\\' ∉ m) : t = m := by
  induction t generalizing m with
  | nil => exact h
  | cons c t ih =>
    rw [escapeJsonEntireText, List.flatMap_cons] at h
    subst h
    rw [List.mem_append, not_or] at hm
    have hplain := (escapeChar_cases c).resolve_right hm.1
    have hrest : t = t.flatMap escapeChar := ih rfl hm.2
    rw [hplain, List.singleton_append, ← hrest]

section
variable {cfg : Config} {rows₀ : List IssueRow} {hist : List Handled} {h : Handled} {w : World} {r : IssueRow}

/-- The subject the list looks at is that of the task. -/
theorem RowOf.theme {task : NewTask} (hrow : RowOf task r) : r.theme = escapeJsonEntireText task.subj := by
  obtain ⟨created, htexts⟩ := hrow
  simp only [IssueRow.texts, List.cons.injEq] at htexts
  exact htexts.2.2.2.2.1

/-- A filed row is shown as what it is exactly if it is no family. -/
theorem FiledAfter.kind_shown (hfiled : FiledAfter cfg hist h r) :
    ∃ d said, lastDialog cfg h.x.fromId (hist ++ [h]) = some (d, said) ∧ (ShownByKind d said r ↔ d ≠ .family) := by
  obtain ⟨hr, task, htask, hrow⟩ := hfiled
  obtain ⟨d, said, hlast, hfamily, hgiven⟩ := filed_subj hr htask
  have hmarked (p : Nat) (hm : (issueOfRow p r).theme = familyTheme) : task.subj = familyTheme :=
    eq_of_escaped (hrow.theme.symm.trans hm) (by decide)
  refine ⟨d, said, hlast, fun hshown hd => ?_, fun hd p => ?_⟩
  · have hbuilt := hshown 0
    rw [if_pos hd, builtMsg_eq] at hbuilt
    split at hbuilt
    · next hm =>
      rcases hfamily hd with hsubj | hsubj
      all_goals
        rw [hmarked 0 hm] at hsubj
        exact absurd hsubj (by decide)
    · exact familyMsg_ne_generalMsg _ hbuilt.symm
  · rw [if_neg hd, builtMsg_eq]
    by_cases hm : (issueOfRow p r).theme = familyTheme
    · rcases hgiven hd with htyped | hsubj
      · rw [hmarked p hm] at htyped
        exact .inr htyped
      · rw [hmarked p hm] at hsubj
        exact absurd hsubj (by decide)
    · exact .inl (if_neg hm)

/-- In all lives of the bot, and beside the checker: a row in the table that was not there at the
beginning was filed, and whichever filing it is from, it is shown as what it is exactly if the dialog was not
that for families. -/
theorem shown_by_kind_iff (hs : Serves cfg rows₀ hist w) (hr : r ∈ w.sh.db.issues)
    (hnew : ∀ s ∈ rows₀, r.texts ≠ s.texts) :
    (∃ hist h, FiledAfter cfg hist h r) ∧
      ∀ hist h, FiledAfter cfg hist h r →
        ∃ d said, lastDialog cfg h.x.fromId (hist ++ [h]) = some (d, said) ∧ (ShownByKind d said r ↔ d ≠ .family) := by
  refine ⟨?_, fun _ _ hfiled => hfiled.kind_shown⟩
  rcases hs.sourced r hr with ⟨s, hs, htexts⟩ | hfiled
  · exact absurd htexts (hnew s hs)
  · exact hfiled

end

/-! ### A family that is shown as something else -/

/-- A dialog for families, up to the question for the name. -/
def familyAnswers : List (UpdateEnv × Update) :=
  [startFrom 6, clickFrom 6 "new_family", textFrom 6 "AR", textFrom 6 "Doors", textFrom 6 "A wide one",
    textFrom 6 "C:/doors", clickFrom 6 "no_more_photos"].map fun x => (UpdateEnv.calm 0, x)

/-- The update that files the family. -/
def familyFiling : Handled := ⟨.calm 0, lastAnswer, (played {} familyAnswers {}).2⟩

def familyTask : NewTask :=
  { section_ := of "AR", category := of "Doors", description := of "A wide one", project := of "C:/doors",
    subj := of "Создать семейство", type := of "FAMILY", consumerTgId := 6, consumerName := of "Ivan",
    stat := sharedFinalStep7 }

/-- The row of the family, after the checker has found its card in the column of contractor 3. -/
def familyRow : IssueRow :=
  IssueRow.assigned ⟨3, [], [], of "l3"⟩
    {rowOfTask (escapedTask (of "01.01.2025") familyTask) with id := 300, idCard := of "c1"}

def familyFiled : World := final (handleUpdate {} (.calm 0) lastAnswer) (played {} familyAnswers {}).2

/-- The state after that. -/
def familyAssigned : World :=
  {familyFiled with sh := {familyFiled.sh with db :=
    (CheckerStatement.assign (of "c1") ⟨3, [], [], of "l3"⟩).run familyFiled.sh.db}}

theorem familyAnswers_survives : survives {} familyAnswers {} = true := by decide +kernel

theorem familyAnswers_run : Run {} (played {} familyAnswers {}).1 (played {} familyAnswers {}).2 := by
  have hstart : Run {} [] {} := .start rfl
  exact hstart.played familyAnswers_survives

theorem familyAssigned_serves : Serves {} [] ((played {} familyAnswers {}).1 ++ [familyFiling]) familyAssigned := by
  have hstart : Serves {} [] [] {} := .start rfl rfl
  have hserves := hstart.played familyAnswers_survives
  rw [List.nil_append] at hserves
  have hok : failure (handleUpdate {} (.calm 0) lastAnswer) (played {} familyAnswers {}).2 = none := by decide +kernel
  have hfiled : Serves {} [] ((played {} familyAnswers {}).1 ++ [familyFiling]) familyFiled :=
    hserves.update (.calm 0) lastAnswer fun stop hstop => by
      rw [hok] at hstop
      cases hstop
  exact hfiled.checked _

theorem familyAssigned_rows : familyAssigned.sh.db.issues = [familyRow] := by decide +kernel

theorem familyRow_mem : familyRow ∈ familyAssigned.sh.db.issues := by
  rw [familyAssigned_rows]
  exact List.mem_singleton_self _

theorem familyRow_filed : FiledAfter {} (played {} familyAnswers {}).1 familyFiling familyRow := by
  have htask : .createNewIssue familyTask ∈ Handled.effects {} ⟨.calm 0, lastAnswer, (played {} familyAnswers {}).2⟩ := by
    decide +kernel
  exact ⟨familyAnswers_run, familyTask, htask, of "01.01.2025", by decide +kernel⟩

theorem shown_by_kind_iff_family : ∃ d said,
    lastDialog {} familyFiling.x.fromId ((played {} familyAnswers {}).1 ++ [familyFiling]) = some (d, said) ∧
      (ShownByKind d said familyRow ↔ d ≠ .family) :=
  (shown_by_kind_iff familyAssigned_serves familyRow_mem fun _ hs => absurd hs List.not_mem_nil).2 _ _ familyRow_filed

/-- It is on the list of contractor 3, with the general template. -/
theorem family_shown_as_task : ¬∀ cfg rows₀ hist w, Serves cfg rows₀ hist w → ∀ me, ∀ r ∈ w.sh.db.issues,
    r.contractorId = itoa me → ∀ hist h d said, FiledAfter cfg hist h r →
      lastDialog cfg h.x.fromId (hist ++ [h]) = some (d, said) → ShownByKind d said r := by
  intro hall
  have hdialog : (lastDialog {} familyFiling.x.fromId ((played {} familyAnswers {}).1 ++ [familyFiling])).map
      Prod.fst = some .family := by
    decide +kernel
  obtain ⟨⟨d, said⟩, hlast, hd⟩ := Option.map_eq_some_iff.mp hdialog
  have hassigned : familyRow.contractorId = itoa 3 := by decide
  have hshown := hall {} [] _ _ familyAssigned_serves 3 familyRow familyRow_mem hassigned _ _ d said
    familyRow_filed hlast 1
  rw [if_pos hd] at hshown
  revert hshown
  decide +kernel

end Chanserv
