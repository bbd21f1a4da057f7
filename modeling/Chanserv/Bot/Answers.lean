import Chanserv.Bot.Dialogs

/-! What a filed task carries.

Each dialog asks for some fields, one at a step, and fixes the others when it is
opened. A task filed by a dialog carries the answers of its user, cleaned, as
long as three kinds of update stay out of the run; what they do is shown by the
last theorems. -/
namespace Chanserv
open Text Program

/-! ### What a dialog asks for -/

inductive Expected where
  | asked (step : Nat) (clean : Text → Text)
  | fixed (value : Text)

/-- The step of the question, if there is one. -/
def Expected.step : Expected → Option Nat
  | asked step _ => some step
  | fixed _ => none

/-- Whether a session at a step is past the question. -/
def Expected.Before (e : Expected) (stat : Nat) : Prop := ∀ step ∈ e.step, step < stat

instance (e : Expected) (stat : Nat) : Decidable (e.Before stat) :=
  decidable_of_iff ((e.step.all fun step => step < stat) = true) (by
    cases h : e.step <;> simp [Expected.Before, h])

structure Field where
  value : NewTask → Text
  expected : Expected

namespace Dialog

def cleanName (t : Text) : Text := truncateMsgFromUser t 150

/-- Section, project, subject, category, description and customer name. -/
def fields : Dialog → List Field
  | task =>
    [⟨NewTask.section_, .asked taskSectionStep1 cleanLine⟩,
      ⟨NewTask.project, .asked taskProjectStep2 cleanLine⟩,
      ⟨NewTask.subj, .asked taskSubjStep3 cleanLine⟩, ⟨NewTask.category, .fixed []⟩,
      ⟨NewTask.description, .asked taskDescrStep4 cleanDescription⟩,
      ⟨NewTask.consumerName, .asked sharedSeparateTeklaFromBimStep6 cleanName⟩]
  | family =>
    [⟨NewTask.section_, .asked familyUnitStep1 cleanLine⟩,
      ⟨NewTask.project, .asked familyProjectStep4 cleanLine⟩,
      ⟨NewTask.subj, .fixed (of "Создать семейство")⟩,
      ⟨NewTask.category, .asked familyCategoryStep2 cleanLine⟩,
      ⟨NewTask.description, .asked familyDescrStep3 cleanDescription⟩,
      ⟨NewTask.consumerName, .asked sharedSeparateTeklaFromBimStep6 cleanName⟩]
  | tekla =>
    [⟨NewTask.section_, .fixed (of "Проблемы")⟩, ⟨NewTask.project, .fixed []⟩,
      ⟨NewTask.subj, .asked taskSubjStep3 cleanLine⟩, ⟨NewTask.category, .fixed []⟩,
      ⟨NewTask.description, .asked taskDescrStep4 cleanDescription⟩,
      ⟨NewTask.consumerName, .asked sharedSeparateTeklaFromBimStep6 cleanName⟩]

end Dialog

/-- The last message at a step. -/
def Said.last (said : Said) (step : Nat) : Option Text :=
  (said.filter fun e => e.1 = step).getLast?.map Prod.snd

/-- The field is what the user said when asked for it, or what was fixed. -/
def Field.Met (f : Field) (said : Said) (t : NewTask) : Prop :=
  match f.expected with
  | .asked step clean => (said.last step).map clean = some (f.value t)
  | .fixed value => f.value t = value

instance (f : Field) (said : Said) (t : NewTask) : Decidable (f.Met said t) :=
  match h : f.expected with
  | .asked step clean => decidable_of_iff ((said.last step).map clean = some (f.value t)) (by
      rw [Field.Met, h])
  | .fixed value => decidable_of_iff (f.value t = value) (by rw [Field.Met, h])

/-- All fields are. -/
def Dialog.Carries (d : Dialog) (said : Said) (t : NewTask) : Prop := ∀ f ∈ d.fields, f.Met said t

instance (d : Dialog) (said : Said) (t : NewTask) : Decidable (d.Carries said t) :=
  inferInstanceAs (Decidable (∀ f ∈ d.fields, f.Met said t))

/-! ### A task on its way through a dialog -/

structure InDialog (d : Dialog) (said : Said) (t : NewTask) : Prop where
  step : t.stat ∈ d.steps
  met : ∀ f ∈ d.fields, f.expected.Before t.stat → f.Met said t

/-- The steps in use by dialogs are those from 401 to 607; a session there is in the
dialog last opened. -/
def OnTrack (cur : Option (Dialog × Said)) (t : NewTask) : Prop :=
  t.stat < 401 ∨ 607 < t.stat ∨ ∃ d said, cur = some (d, said) ∧ InDialog d said t

section
variable {d : Dialog} {said : Said} {t : NewTask} {f : Field} {stat step : Nat} {text : Text}

theorem Said.last_append (said : Said) (stat : Nat) (text : Text) (step : Nat) :
    Said.last (said ++ [(stat, text)]) step = if stat = step then some text else said.last step := by
  rw [Said.last, List.filter_append]
  by_cases h : stat = step
  · simp [h]
  · simp [h, Said.last]

/-- A message at a step the dialog is at does not change what was said before it. -/
theorem Field.Met.hear (h : f.Met said t) (hbefore : f.expected.Before stat) :
    f.Met (said ++ [(stat, text)]) t := by
  unfold Field.Met at h ⊢
  cases he : f.expected with
  | fixed value =>
    rw [he] at h
    exact h
  | asked step clean =>
    rw [he] at h hbefore
    dsimp only
    rw [Said.last_append, if_neg (Nat.ne_of_gt (hbefore step rfl))]
    exact h

theorem Field.Met.same {t' : NewTask} (h : f.Met said t) (hvalue : f.value t' = f.value t) :
    f.Met said t' := by
  unfold Field.Met at h ⊢
  rw [hvalue]
  exact h

theorem InDialog.same {t' : NewTask} (h : InDialog d said t) (hstat : t'.stat = t.stat)
    (hvalue : ∀ f ∈ d.fields, f.expected.Before t.stat → f.value t' = f.value t) :
    InDialog d said t' := by
  refine ⟨hstat ▸ h.step, fun f hf hbefore => ?_⟩
  rw [hstat] at hbefore
  exact (h.met f hf hbefore).same (hvalue f hf hbefore)

/-- The fields are six members of a task. -/
theorem field_value {t' : NewTask} (hf : f ∈ d.fields)
    (h : (t'.section_, t'.project, t'.subj, t'.category, t'.description, t'.consumerName) =
      (t.section_, t.project, t.subj, t.category, t.description, t.consumerName)) :
    f.value t' = f.value t := by
  simp only [Prod.mk.injEq] at h
  obtain ⟨hsection, hproject, hsubj, hcategory, hdescription, hname⟩ := h
  cases d
  all_goals
    simp only [Dialog.fields, List.mem_cons, List.not_mem_nil, or_false] at hf
    rcases hf with rfl | rfl | rfl | rfl | rfl | rfl <;> assumption

theorem InDialog.hear (h : InDialog d said t) : InDialog d (said ++ [(t.stat, text)]) t :=
  ⟨h.step, fun f hf hbefore => (h.met f hf hbefore).hear hbefore⟩

/-- Each question records one field, the one asked for at the step, and asks for the field of the next
step. A text in place of photos overwrites the project, whatever the dialog. -/
theorem question_field {question : Question} (hq : questionAt stat text = some question) (hd : stat ∈ d.steps)
    (hf : f ∈ d.fields) :
    question.next ∈ d.steps ∧
      ((stat ≠ sharedFirstnameStep5 ∧ f.expected = .asked stat question.clean ∨
          stat = sharedFirstnameStep5 ∧
            (f.expected.step = none ∨ d ≠ .tekla ∧ ∃ step, f.expected = .asked step question.clean)) ∧
          (∀ v t s, f.value {question.record v t with stat := s} = v) ∨
        (f.expected.step ≠ some stat ∧ (f.expected.Before question.next → f.expected.Before stat)) ∧
          ∀ v t s, f.value {question.record v t with stat := s} = f.value t) := by
  have hmem := mem_questions hq hd
  cases d
  all_goals
    simp only [Dialog.questions, List.mem_cons, List.not_mem_nil, or_false, Prod.mk.injEq] at hmem
    simp only [Dialog.fields, List.mem_cons, List.not_mem_nil, or_false] at hf
  case tekla =>
    rcases hmem with ⟨rfl, rfl⟩ | ⟨rfl, rfl⟩ | ⟨rfl, rfl⟩ <;> rcases hf with rfl | rfl | rfl | rfl | rfl | rfl
    all_goals first
      | exact ⟨by decide, .inl ⟨.inl ⟨by decide, rfl⟩, fun _ _ _ => rfl⟩⟩
      | exact ⟨by decide, .inl ⟨.inr ⟨rfl, .inl rfl⟩, fun _ _ _ => rfl⟩⟩
      | exact ⟨by decide, .inr ⟨by decide, fun _ _ _ => rfl⟩⟩
  all_goals
    rcases hmem with ⟨rfl, rfl⟩ | ⟨rfl, rfl⟩ | ⟨rfl, rfl⟩ | ⟨rfl, rfl⟩ | ⟨rfl, rfl⟩ <;>
      rcases hf with rfl | rfl | rfl | rfl | rfl | rfl
    all_goals first
      | exact ⟨by decide, .inl ⟨.inl ⟨by decide, rfl⟩, fun _ _ _ => rfl⟩⟩
      | exact ⟨by decide, .inl ⟨.inr ⟨rfl, .inl rfl⟩, fun _ _ _ => rfl⟩⟩
      | exact ⟨by decide, .inl ⟨.inr ⟨rfl, .inr ⟨by decide, _, rfl⟩⟩, fun _ _ _ => rfl⟩⟩
      | exact ⟨by decide, .inr ⟨by decide, fun _ _ _ => rfl⟩⟩

theorem InDialog.answer {question : Question} (h : InDialog d said t)
    (hq : questionAt t.stat text = some question) (hphoto : t.stat = sharedFirstnameStep5 → text = [])
    (hstat : stat = t.stat ∨ stat = question.next) :
    InDialog d (said ++ [(t.stat, text)]) {question.record (question.clean text) t with stat} where
  step := by
    rcases hstat with rfl | rfl
    · exact h.step
    · obtain ⟨f, hf⟩ : ∃ f, f ∈ d.fields := by cases d <;> exact ⟨_, List.mem_cons_self ..⟩
      exact (question_field hq h.step hf).1
  met f hf hbefore := by
    obtain ⟨-, ⟨⟨-, hasked⟩ | ⟨hphotos, -⟩, hvalue⟩ | ⟨⟨hstep, hbefore'⟩, hvalue⟩⟩ := question_field hq h.step hf
    · rw [Field.Met, hasked]
      dsimp only
      rw [Said.last_append, if_pos rfl, Option.map_some, hvalue]
    · rw [hphotos, questionAt, if_pos (hphoto hphotos)] at hq
      cases hq
    · have hpast : f.expected.Before t.stat := by
        rcases hstat with rfl | rfl
        · exact hbefore
        · exact hbefore' hbefore
      exact ((h.met f hf hpast).hear hpast).same (hvalue _ _ _)

/-- A dialog starts with nothing said, and with what it fixes. -/
theorem InDialog.start (h : d = .tekla → t.project = [] ∧ t.category = []) :
    InDialog d [] (d.start t) := by
  have hstat : (d.start t).stat = (d.start {}).stat := by cases d <;> rfl
  refine ⟨?_, fun f hf hbefore => ?_⟩
  · rw [hstat]
    cases d <;> decide
  · rw [hstat] at hbefore
    cases d
    case tekla =>
      obtain ⟨hproject, hcategory⟩ := h rfl
      simp only [Dialog.fields, List.mem_cons, List.not_mem_nil, or_false] at hf
      rcases hf with rfl | rfl | rfl | rfl | rfl | rfl
      all_goals first
        | exact absurd hbefore (by decide)
        | exact rfl
        | assumption
    all_goals
      simp only [Dialog.fields, List.mem_cons, List.not_mem_nil, or_false] at hf
      rcases hf with rfl | rfl | rfl | rfl | rfl | rfl
      all_goals first
        | exact absurd hbefore (by decide)
        | exact rfl

/-- Nothing is asked for at the photo step. -/
theorem before_photos (hf : f ∈ d.fields) (h : f.expected.Before sharedSeparateTeklaFromBimStep6) :
    f.expected.Before sharedFirstnameStep5 := by
  revert h
  cases d
  all_goals
    simp only [Dialog.fields, List.mem_cons, List.not_mem_nil, or_false] at hf
    rcases hf with rfl | rfl | rfl | rfl | rfl | rfl <;> decide

/-- The photo step is left for the last question. -/
theorem InDialog.photosDone (h : InDialog d said t) (hstat : t.stat = sharedFirstnameStep5) :
    InDialog d said {t with stat := sharedSeparateTeklaFromBimStep6} := by
  refine ⟨?_, fun f hf hbefore => ?_⟩
  · show sharedSeparateTeklaFromBimStep6 ∈ d.steps
    cases d <;> decide
  · have hpast : f.expected.Before sharedFirstnameStep5 := before_photos hf hbefore
    exact (h.met f hf (hstat ▸ hpast)).same (field_value hf rfl)

/-- The steps at which the menu for Tekla spoils a subject given or fixed before. -/
def subjSteps : List Nat :=
  [taskDescrStep4, familyUnitStep1, familyCategoryStep2, familyDescrStep3, familyProjectStep4,
    sharedFirstnameStep5, sharedSeparateTeklaFromBimStep6]

theorem InDialog.teklaMenu (h : InDialog d said t) (hstat : t.stat ∉ subjSteps) :
    InDialog d said {t with subj := of "Tekla"} := by
  refine h.same rfl fun f hf hbefore => ?_
  have hstep := h.step
  cases d
  all_goals
    simp only [Dialog.steps, List.mem_cons, List.not_mem_nil, or_false] at hstep
    simp only [Dialog.fields, List.mem_cons, List.not_mem_nil, or_false] at hf
  case tekla =>
    rcases hstep with hs | hs | hs | hs
    all_goals
      rw [hs] at hstat hbefore
      first
        | exact absurd (by decide) hstat
        | rcases hf with rfl | rfl | rfl | rfl | rfl | rfl
          all_goals first
            | exact absurd hbefore (by decide)
            | exact rfl
  all_goals
    rcases hstep with hs | hs | hs | hs | hs | hs
    all_goals
      rw [hs] at hstat hbefore
      first
        | exact absurd (by decide) hstat
        | rcases hf with rfl | rfl | rfl | rfl | rfl | rfl
          all_goals first
            | exact absurd hbefore (by decide)
            | exact rfl

end

/-! ### One move -/

section
variable {opens : Option Dialog} {menu : Prop} {t : NewTask} {x : Update}
  {cur : Option (Dialog × Said)} {m : Message}

/-- The answers given so far are something to track. -/
theorem inDialog_trackable : Trackable InDialog where
  same h hstat hanswers := h.same hstat fun _ hf _ => field_value hf (by
    simpa [NewTask.answers] using hanswers)
  hear _ h := h.hear
  photosDone h hstat := h.photosDone hstat

/-- They are kept, unless one of three things happens. -/
theorem inDialog_admitted (hphoto : ∀ m, x = .message m → t.stat = sharedFirstnameStep5 → m.text = [])
    (htekla : opens = some .tekla → t.project = [] ∧ t.category = [])
    (hmenu : menu → t.stat ∉ subjSteps) : Admitted InDialog cur opens menu t x where
  start _ hd := .start fun htekla' => htekla (hd.trans (congrArg some htekla'))
  answer m _ _ _ _ hm _ h hq hstat := h.answer hq (hphoto m hm) hstat
  menu hm _ _ _ h := h.teklaMenu (hmenu hm)

/-- The name is asked for last. -/
theorem field_cases {d : Dialog} {f : Field} (hf : f ∈ d.fields) :
    f.expected.Before sharedSeparateTeklaFromBimStep6 ∨
      f = ⟨NewTask.consumerName, .asked sharedSeparateTeklaFromBimStep6 Dialog.cleanName⟩ := by
  cases d
  all_goals
    simp only [Dialog.fields, List.mem_cons, List.not_mem_nil, or_false] at hf
    rcases hf with rfl | rfl | rfl | rfl | rfl | rfl
    all_goals first
      | exact .inr rfl
      | exact .inl (by decide)

/-- The name leaves the other fields as they are. -/
theorem completed_value {d : Dialog} {f : Field} (hf : f ∈ d.fields)
    (hbefore : f.expected.Before sharedSeparateTeklaFromBimStep6) : f.value (completed m t) = f.value t := by
  revert hbefore
  cases d
  all_goals
    simp only [Dialog.fields, List.mem_cons, List.not_mem_nil, or_false] at hf
    rcases hf with rfl | rfl | rfl | rfl | rfl | rfl
    all_goals first
      | exact fun _ => rfl
      | exact fun hbefore => absurd hbefore (by decide)

theorem InDialog.carries {d : Dialog} {said : Said} (h : InDialog d said t)
    (hstat : t.stat = sharedSeparateTeklaFromBimStep6) :
    d.Carries (said ++ [(t.stat, m.text)]) (completed m t) := by
  intro f hf
  rcases field_cases hf with hbefore | rfl
  · have hpast : f.expected.Before t.stat := hstat ▸ hbefore
    exact ((h.met f hf hpast).hear hpast).same (completed_value hf hbefore)
  · show (Said.last _ _).map _ = _
    rw [Said.last_append, if_pos hstat]
    rfl

end

/-! ### Runs -/

/-- None of three things happens: a text at the photo step; a dialog for Tekla opened over
what another one left; the menu for Tekla shown while a subject is in place. -/
structure Handled.Undisturbed (cfg : Config) (h : Handled) : Prop where
  photo : ∀ text, heard cfg h.env h.before h.x = some (sharedFirstnameStep5, text) → text = []
  tekla : ∀ u, h.before.session h.x.fromId = some u → opening h.env u h.x = some .tekla →
    u.jiraTask.project = [] ∧ u.jiraTask.category = []
  menu : ∀ u, h.before.session h.x.fromId = some u → entersTekla h.env u h.x →
    u.jiraTask.stat ∉ subjSteps

instance (cfg : Config) (h : Handled) : Decidable (h.Undisturbed cfg) :=
  decidable_of_iff
    ((∀ e ∈ heard cfg h.env h.before h.x, e.1 = sharedFirstnameStep5 → e.2 = []) ∧
      ∀ u ∈ h.before.session h.x.fromId,
        (opening h.env u h.x = some .tekla → u.jiraTask.project = [] ∧ u.jiraTask.category = []) ∧
          (entersTekla h.env u h.x → u.jiraTask.stat ∉ subjSteps))
    ⟨fun hc => ⟨fun _ ht => hc.1 _ ht rfl, fun u hu => (hc.2 u hu).1, fun u hu => (hc.2 u hu).2⟩,
      fun hc => ⟨fun e he hstat => hc.photo e.2 (hstat ▸ he), fun u hu => ⟨hc.tekla u hu, hc.menu u hu⟩⟩⟩

section
variable {cfg : Config} {hist : List Handled} {w : World}

variable {env : UpdateEnv} {x : Update}

theorem Handled.Undisturbed.admitted {h : Handled} (hx : h.Undisturbed cfg) (hist : List Handled) :
    h.Admitted InDialog cfg hist := by
  intro u harr hheard
  have hphoto (m : Message) (hm : h.x = .message m) (hstat : u.jiraTask.stat = sharedFirstnameStep5) :
      m.text = [] := hx.photo m.text (by rw [hheard m hm, hstat])
  cases harr with
  | @found u₀ hu hlook =>
    refine inDialog_admitted hphoto (fun hopen => ?_) fun hmenu => ?_
    · rw [hlook.opening] at hopen
      rw [hlook.task]
      exact hx.tekla u₀ hu hopen
    · rw [hlook.entersTekla] at hmenu
      rw [hlook.task]
      exact hx.menu u₀ hu hmenu
  | new htask =>
    refine inDialog_admitted hphoto (fun _ => ?_) fun _ => ?_
    all_goals rw [htask]
    · exact ⟨rfl, rfl⟩
    · decide

theorem undisturbed_admitted (hall : ∀ h ∈ hist, h.Undisturbed cfg) (earlier : List Handled) (h : Handled)
    (later : List Handled) (hsplit : hist = earlier ++ h :: later) : h.Admitted InDialog cfg earlier :=
  (hall h (by rw [hsplit]; simp)).admitted earlier

/-- In an undisturbed run every session in a dialog carries the answers given so far. -/
theorem Run.onTrack (hr : Run cfg hist w) (hall : ∀ h ∈ hist, h.Undisturbed cfg) (b : Int)
    (u : UserDispatcher) (hu : w.session b = some u) :
    OnTrack (lastDialog cfg b hist) u.jiraTask :=
  hr.tracked inDialog_trackable (undisturbed_admitted hall) b u hu

/-- Whenever the update starts to file a task, the task carries what its user said since
the dialog was opened. -/
def FilesAnswers (cfg : Config) (hist : List Handled) (h : Handled) : Prop :=
  ∀ task, .createNewIssue task ∈ h.effects cfg →
    ∃ d said, lastDialog cfg h.x.fromId (hist ++ [h]) = some (d, said) ∧ d.Carries said task

/-- In an undisturbed run every task filed carries the answers of its user. -/
theorem filed_tasks_carry_answers (hr : Run cfg hist w) (hall : ∀ h ∈ hist, h.Undisturbed cfg)
    (hx : Handled.Undisturbed cfg ⟨env, x, w⟩) : FilesAnswers cfg hist ⟨env, x, w⟩ := by
  intro task htask
  obtain ⟨m, d, said, t, rfl, -, hstat, ht, rfl, hlast⟩ :=
    hr.filedFrom inDialog_trackable (undisturbed_admitted hall) InDialog.step htask
  exact ⟨d, _, hlast, ht.carries hstat⟩

end

/-! A dialog from its opening to the photos, and its last answer. -/

def taskAnswers : List (UpdateEnv × Update) :=
  [startFrom 6, clickFrom 6 "new_task", textFrom 6 "AR", textFrom 6 "P1", textFrom 6 "door",
    textFrom 6 "It does not open"].map fun x => (UpdateEnv.calm 0, x)

def noMorePhotos : UpdateEnv × Update := (UpdateEnv.calm 0, clickFrom 6 "no_more_photos")

def photoText : UpdateEnv × Update := (UpdateEnv.calm 0, textFrom 6 "a photo follows")

def lastAnswer : Update := textFrom 6 "Ivan"

theorem filed_tasks_carry_answers_task :
    let (hist, w) := played {} (taskAnswers ++ [noMorePhotos]) {}
    (Handled.effects {} ⟨.calm 0, lastAnswer, w⟩).length = 1 ∧
      FilesAnswers {} hist ⟨.calm 0, lastAnswer, w⟩ := by
  have hstart : Run {} [] {} := .start rfl
  have halive : survives {} (taskAnswers ++ [noMorePhotos]) {} = true := by decide +kernel
  have hr := hstart.played halive
  refine ⟨by decide +kernel, filed_tasks_carry_answers hr ?_ ?_⟩
  · decide +kernel
  · decide +kernel

/-- The task filed after a text at the photo step: it has taken the project's place. -/
def spoiledTask : NewTask :=
  { section_ := of "AR", project := of "a photo follows", subj := of "door",
    description := of "It does not open", type := of "BIMTASK", consumerTgId := 6,
    consumerName := of "Ivan", stat := sharedFinalStep7 }

theorem photo_text_spoils_project :
    ¬∀ cfg hist w, Run cfg hist w → ∀ env x, FilesAnswers cfg hist ⟨env, x, w⟩ := by
  intro h
  have hstart : Run {} [] {} := .start rfl
  have halive : survives {} (taskAnswers ++ [photoText, noMorePhotos]) {} = true := by decide +kernel
  have htask : .createNewIssue spoiledTask ∈ Handled.effects {}
      ⟨.calm 0, lastAnswer, (played {} (taskAnswers ++ [photoText, noMorePhotos]) {}).2⟩ := by
    decide +kernel
  obtain ⟨d, said, hd, hcarries⟩ :=
    h _ _ _ (hstart.played halive) (.calm 0) lastAnswer spoiledTask htask
  have hdialog : lastDialog {} 6 ((played {} (taskAnswers ++ [photoText, noMorePhotos]) {}).1 ++
      [⟨.calm 0, lastAnswer, (played {} (taskAnswers ++ [photoText, noMorePhotos]) {}).2⟩]) =
      some (.task, [(401, of "AR"), (402, of "P1"), (403, of "door"), (404, of "It does not open"),
        (605, of "a photo follows"), (606, of "Ivan")]) := by
    decide +kernel
  obtain ⟨rfl, rfl⟩ := Prod.mk.inj (Option.some.inj (hdialog.symm.trans hd))
  exact absurd hcarries (by decide +kernel)

end Chanserv
