import Chanserv.Bot.Answers
import Chanserv.Program.Traces

/-! Tasks with a blank.

A message without a text (a sticker, a voice message, a photo, whatever its caption
says) is an answer like any other at the steps before the photos: it leaves the field
empty and leads on. The menu for Tekla replaces a subject its user gave. A task has
all that its dialog asked for if neither happens. -/
namespace Chanserv
open Text Program

/-- What was asked for is a text its user sent, cleaned, and something is left of it. -/
def Field.Given (f : Field) (said : Said) (t : NewTask) : Prop :=
  match f.expected with
  | .asked _ clean => f.value t ≠ [] ∧ ∃ e ∈ said, f.value t = clean e.2
  | .fixed _ => True

/-- Whenever the update starts to file a task, the task has all its dialog asked for. -/
def FilesGiven (cfg : Config) (hist : List Handled) (h : Handled) : Prop :=
  ∀ task, .createNewIssue task ∈ h.effects cfg →
    ∃ d said, lastDialog cfg h.x.fromId (hist ++ [h]) = some (d, said) ∧ ∀ f ∈ d.fields, f.Given said task

/-- The steps at which the subject asked for has been given. -/
def subjGivenSteps : List Nat := [taskDescrStep4, sharedFirstnameStep5, sharedSeparateTeklaFromBimStep6]

/-- The update leaves no blank: its text is not empty after cleaning, but for the reason for a key and
where the dialog has no use for it, and the menu for Tekla replaces no subject. -/
structure Handled.LeavesNoBlank (cfg : Config) (hist : List Handled) (h : Handled) : Prop where
  text : ∀ step text question, heard cfg h.env h.before h.x = some (step, text) →
    questionAt step text = some question → question.clean text = [] →
    step = revitMasterKeyReasonStep1 ∨
      step = sharedFirstnameStep5 ∧ (lastDialog cfg h.x.fromId hist).map Prod.fst = some .tekla
  menu : ∀ u, h.before.session h.x.fromId = some u → entersTekla h.env u h.x →
    u.jiraTask.stat ∈ subjGivenSteps →
    u.jiraTask.subj = of "Tekla" ∨ (lastDialog cfg h.x.fromId hist).map Prod.fst = some .family

instance (cfg : Config) (hist : List Handled) (h : Handled) : Decidable (h.LeavesNoBlank cfg hist) :=
  decidable_of_iff
    ((∀ e ∈ heard cfg h.env h.before h.x, ∀ question ∈ questionAt e.1 e.2, question.clean e.2 = [] →
        e.1 = revitMasterKeyReasonStep1 ∨
          e.1 = sharedFirstnameStep5 ∧ (lastDialog cfg h.x.fromId hist).map Prod.fst = some .tekla) ∧
      ∀ u ∈ h.before.session h.x.fromId, entersTekla h.env u h.x → u.jiraTask.stat ∈ subjGivenSteps →
        u.jiraTask.subj = of "Tekla" ∨ (lastDialog cfg h.x.fromId hist).map Prod.fst = some .family)
    ⟨fun hc => ⟨fun step text question ht hq => hc.1 (step, text) ht question hq, hc.2⟩,
      fun hc => ⟨fun e he question hq => hc.text e.1 e.2 question he hq, hc.menu⟩⟩

/-! ### A task on its way -/

structure FilledIn (d : Dialog) (said : Said) (t : NewTask) : Prop where
  step : t.stat ∈ d.steps
  given : ∀ f ∈ d.fields, f.expected.Before t.stat → f.Given said t

section
variable {d : Dialog} {said : Said} {t t' : NewTask} {f : Field} {stat : Nat} {text : Text} {m : Message}

theorem Field.given_of_fixed (h : f.expected.step = none) : f.Given said t := by
  unfold Field.Given
  cases he : f.expected with
  | asked => rw [he] at h; cases h
  | fixed => trivial

theorem Field.Given.more (h : f.Given said t) (e : Nat × Text) : f.Given (said ++ [e]) t := by
  unfold Field.Given at h ⊢
  cases he : f.expected with
  | fixed => trivial
  | asked =>
    rw [he] at h
    obtain ⟨hne, e', he', hvalue⟩ := h
    exact ⟨hne, e', List.mem_append_left _ he', hvalue⟩

theorem Field.Given.same (h : f.Given said t) (hvalue : f.value t' = f.value t) : f.Given said t' := by
  unfold Field.Given at h ⊢
  rw [hvalue]
  exact h

theorem filledIn_trackable : Trackable FilledIn where
  same h hstat hanswers := by
    refine ⟨hstat ▸ h.step, fun f hf hbefore => ?_⟩
    rw [hstat] at hbefore
    exact (h.given f hf hbefore).same (field_value hf (by simpa [NewTask.answers] using hanswers))
  hear text h := ⟨h.step, fun f hf hbefore => (h.given f hf hbefore).more _⟩
  photosDone {d _ t} h hstat := by
    refine ⟨?_, fun f hf hbefore => ?_⟩
    · show sharedSeparateTeklaFromBimStep6 ∈ d.steps
      cases d <;> decide
    · have hpast : f.expected.Before t.stat := hstat ▸ before_photos hf hbefore
      exact (h.given f hf hpast).same (field_value hf rfl)

theorem FilledIn.start (d : Dialog) (t : NewTask) : FilledIn d [] (d.start t) := by
  have hstat : (d.start t).stat = (d.start {}).stat := by cases d <;> rfl
  refine ⟨by rw [hstat]; cases d <;> decide, fun f hf hbefore => Field.given_of_fixed ?_⟩
  rw [hstat] at hbefore
  revert hbefore
  cases d
  all_goals
    simp only [Dialog.fields, List.mem_cons, List.not_mem_nil, or_false] at hf
    rcases hf with rfl | rfl | rfl | rfl | rfl | rfl <;> decide

theorem FilledIn.answer {question : Question} (h : FilledIn d said t)
    (hq : questionAt t.stat text = some question)
    (htext : question.clean text = [] → d = .tekla ∧ t.stat = sharedFirstnameStep5)
    (hstat : stat = t.stat ∨ stat = question.next) :
    FilledIn d (said ++ [(t.stat, text)]) {question.record (question.clean text) t with stat} where
  step := by
    rcases hstat with rfl | rfl
    · exact h.step
    · obtain ⟨f, hf⟩ : ∃ f, f ∈ d.fields := by cases d <;> exact ⟨_, List.mem_cons_self ..⟩
      exact (question_field hq h.step hf).1
  given f hf hbefore := by
    have hgiven {step : Nat} (hasked : f.expected = .asked step question.clean)
        (hno : ¬(d = .tekla ∧ t.stat = sharedFirstnameStep5))
        (hvalue : ∀ v t s, f.value {question.record v t with stat := s} = v) :
        f.Given (said ++ [(t.stat, text)]) {question.record (question.clean text) t with stat} := by
      rw [Field.Given, hasked]
      dsimp only
      rw [hvalue]
      refine ⟨fun hempty => hno (htext hempty), (t.stat, text), ?_, rfl⟩
      exact List.mem_append_right _ (List.mem_singleton_self _)
    obtain ⟨-, ⟨⟨hno, hasked⟩ | ⟨-, hfixed | ⟨hno, _, hasked⟩⟩, hvalue⟩ | ⟨⟨-, hpast⟩, hvalue⟩⟩ := question_field hq h.step hf
    · exact hgiven hasked (fun hphoto => hno hphoto.2) hvalue
    · exact Field.given_of_fixed hfixed
    · exact hgiven hasked (fun hphoto => hno hphoto.1) hvalue
    · have hpast : f.expected.Before t.stat := by
        rcases hstat with rfl | rfl
        · exact hbefore
        · exact hpast hbefore
      exact ((h.given f hf hpast).more _).same (hvalue _ _ _)

/-- The menu for Tekla replaces the subject alone. -/
theorem subj_field (hf : f ∈ d.fields) :
    (∀ t v, f.value {t with subj := v} = f.value t) ∨ f.expected.step = none ∨
      d ≠ .family ∧ f.expected.step = some taskSubjStep3 := by
  cases d
  all_goals
    simp only [Dialog.fields, List.mem_cons, List.not_mem_nil, or_false] at hf
    rcases hf with rfl | rfl | rfl | rfl | rfl | rfl
    all_goals first
      | exact .inl fun _ _ => rfl
      | exact .inr (.inl rfl)
      | exact .inr (.inr ⟨by decide, rfl⟩)

theorem subj_given (hd : d ≠ .family) (hstep : stat ∈ d.steps) (hpast : taskSubjStep3 < stat) :
    stat ∈ subjGivenSteps := by
  revert hpast
  revert stat
  cases d
  · decide
  · exact absurd rfl hd
  · decide

theorem FilledIn.teklaMenu (h : FilledIn d said t)
    (hsubj : t.stat ∈ subjGivenSteps → t.subj = of "Tekla" ∨ d = .family) :
    FilledIn d said {t with subj := of "Tekla"} := by
  refine ⟨h.step, fun f hf hbefore => ?_⟩
  have hgiven := h.given f hf hbefore
  rcases subj_field hf with hsame | hfixed | ⟨hfamily, hstep⟩
  · exact hgiven.same (hsame t _)
  · exact Field.given_of_fixed hfixed
  · have hpast : taskSubjStep3 < t.stat := hbefore _ hstep
    have hsame : t.subj = of "Tekla" := (hsubj (subj_given hfamily h.step hpast)).resolve_right hfamily
    rw [← hsame]
    exact hgiven

theorem cleanName_ne_nil (h : text ≠ []) : Dialog.cleanName text ≠ [] := by
  rw [Dialog.cleanName, truncateMsgFromUser]
  split
  · exact List.append_ne_nil_of_right_ne_nil _ (by decide)
  · exact h

/-- With the name the last blank is filled. -/
theorem FilledIn.completed (h : FilledIn d said t) (hstat : t.stat = sharedSeparateTeklaFromBimStep6)
    (htext : m.text ≠ []) (hf : f ∈ d.fields) :
    f.Given (said ++ [(t.stat, m.text)]) (Chanserv.completed m t) := by
  rcases field_cases hf with hbefore | rfl
  · have hpast : f.expected.Before t.stat := hstat ▸ hbefore
    exact ((h.given f hf hpast).more _).same (completed_value hf hbefore)
  · exact ⟨cleanName_ne_nil htext, _, List.mem_append_right _ (List.mem_singleton_self _), rfl⟩

end

/-! ### Runs -/

section
variable {cfg : Config} {hist : List Handled} {w : World} {env : UpdateEnv} {x : Update}

theorem Handled.LeavesNoBlank.admitted {h : Handled} (hx : h.LeavesNoBlank cfg hist) :
    h.Admitted FilledIn cfg hist := by
  intro u harr hheard
  refine ⟨fun d _ => FilledIn.start d _, fun m d said question stat hm hcur h hq hstat => ?_,
    fun hmenu d said hcur h => ?_⟩
  · refine h.answer hq (fun hempty => ?_) hstat
    rcases hx.text _ _ question (hheard m hm) hq hempty with hkey | ⟨hphoto, htekla⟩
    · have hstep := h.step
      rw [hkey] at hstep
      cases d <;> exact absurd hstep (by decide)
    · rw [hcur, Option.map_some, Option.some.injEq] at htekla
      exact ⟨htekla, hphoto⟩
  · refine h.teklaMenu fun hgiven => ?_
    cases harr with
    | found hu hlook =>
      rw [hlook.entersTekla] at hmenu
      rw [hlook.task] at hgiven ⊢
      rcases hx.menu _ hu hmenu hgiven with hsubj | hfamily
      · exact .inl hsubj
      · rw [hcur, Option.map_some, Option.some.injEq] at hfamily
        exact .inr hfamily
    | new htask =>
      rw [htask] at hgiven
      exact absurd hgiven (by decide)

/-- No task is filed with a blank after updates that leave none. -/
theorem filed_without_blanks (hr : Run cfg hist w)
    (hall : ∀ earlier h later, hist = earlier ++ h :: later → h.LeavesNoBlank cfg earlier) :
    FilesGiven cfg hist ⟨env, x, w⟩ := by
  intro task htask
  have hadmitted (earlier : List Handled) (h : Handled) (later : List Handled)
      (hsplit : hist = earlier ++ h :: later) : h.Admitted FilledIn cfg earlier :=
    (hall earlier h later hsplit).admitted
  obtain ⟨m, d, said, t, rfl, htext, hstat, ht, rfl, hlast⟩ :=
    hr.filedFrom filledIn_trackable hadmitted FilledIn.step htask
  exact ⟨d, _, hlast, fun f hf => ht.completed hstat htext hf⟩

end

theorem filed_without_blanks_task :
    let (hist, w) := played {} (taskAnswers ++ [noMorePhotos]) {}
    (Handled.effects {} ⟨.calm 0, lastAnswer, w⟩).length = 1 ∧ FilesGiven {} hist ⟨.calm 0, lastAnswer, w⟩ := by
  have hstart : Run {} [] {} := .start rfl
  have halive : survives {} (taskAnswers ++ [noMorePhotos]) {} = true := by decide +kernel
  refine ⟨by decide +kernel, filed_without_blanks (hstart.played halive) (forall_split_iff.mpr ?_)⟩
  decide +kernel

/-- The answers of a user who sends a sticker when asked for the project. -/
def stickerAnswers : List (UpdateEnv × Update) :=
  [startFrom 6, clickFrom 6 "new_task", textFrom 6 "AR", textFrom 6 "", textFrom 6 "door",
    textFrom 6 "It does not open", clickFrom 6 "no_more_photos"].map fun x => (UpdateEnv.calm 0, x)

/-- The task filed then names no project. -/
def projectlessTask : NewTask :=
  { section_ := of "AR", subj := of "door", description := of "It does not open", type := of "BIMTASK",
    consumerTgId := 6, consumerName := of "Ivan", stat := sharedFinalStep7 }

theorem filed_with_blank : ¬∀ cfg hist w, Run cfg hist w → ∀ env x, FilesGiven cfg hist ⟨env, x, w⟩ := by
  intro h
  have hstart : Run {} [] {} := .start rfl
  have halive : survives {} stickerAnswers {} = true := by decide +kernel
  have htask : .createNewIssue projectlessTask ∈ Handled.effects {}
      ⟨.calm 0, lastAnswer, (played {} stickerAnswers {}).2⟩ := by
    decide +kernel
  obtain ⟨d, said, hd, hgiven⟩ :=
    h _ _ _ (hstart.played halive) (.calm 0) lastAnswer projectlessTask htask
  have hdialog : (lastDialog {} 6 ((played {} stickerAnswers {}).1 ++
      [⟨.calm 0, lastAnswer, (played {} stickerAnswers {}).2⟩])).map Prod.fst = some .task := by
    decide +kernel
  obtain rfl : Dialog.task = d := Option.some.inj (hdialog.symm.trans (congrArg (Option.map Prod.fst) hd))
  have hproject := hgiven ⟨NewTask.project, .asked taskProjectStep2 cleanLine⟩ (by simp [Dialog.fields])
  exact hproject.1 rfl

end Chanserv
