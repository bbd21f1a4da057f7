import Chanserv.Bot.Run
import Chanserv.Program.Traces

/-! What users say in their dialogs.

A dialog begins with the click that opens it; its user says whatever comes at one
of its steps since then. What holds of a task in its dialog, whatever it is, holds
in a whole run if the updates that open a dialog, answer a question or show the
menu for Tekla keep it: all other updates do (`Run.tracked`). -/
namespace Chanserv
open Text Program

namespace Dialog

/-- The steps of a dialog, in its order. -/
def steps : Dialog → List Nat
  | task => [taskSectionStep1, taskProjectStep2, taskSubjStep3, taskDescrStep4,
      sharedFirstnameStep5, sharedSeparateTeklaFromBimStep6]
  | family => [familyUnitStep1, familyCategoryStep2, familyDescrStep3, familyProjectStep4,
      sharedFirstnameStep5, sharedSeparateTeklaFromBimStep6]
  | tekla => [taskSubjStep3, taskDescrStep4, sharedFirstnameStep5, sharedSeparateTeklaFromBimStep6]

/-- The questions a dialog asks at its steps; a text at the photo step answers the last one again. -/
def questions : Dialog → List (Nat × Question)
  | task => [(taskSectionStep1, taskSection), (taskProjectStep2, taskProject), (taskSubjStep3, taskSubj),
      (taskDescrStep4, taskDescr), (sharedFirstnameStep5, familyProject)]
  | family => [(familyUnitStep1, familyUnit), (familyCategoryStep2, familyCategory),
      (familyDescrStep3, familyDescr), (familyProjectStep4, familyProject), (sharedFirstnameStep5, familyProject)]
  | tekla => [(taskSubjStep3, taskSubj), (taskDescrStep4, taskDescr), (sharedFirstnameStep5, familyProject)]

end Dialog

/-- The messages of a user since a dialog was opened, each with the step it came at. -/
abbrev Said := List (Nat × Text)

/-- What was said in the dialog last opened, after an update that opens a dialog or was
heard at a step. -/
def follow (cur : Option (Dialog × Said)) (opens : Option Dialog) (heard : Option (Nat × Text)) :
    Option (Dialog × Said) :=
  match opens, heard with
  | some d, _ => some (d, [])
  | none, some e => cur.map fun c => (c.1, c.2 ++ [e])
  | none, none => cur

/-- The step an update is heard at, and its text. -/
def hearing (stat : Nat) : Update → Option (Nat × Text)
  | .message m => some (stat, m.text)
  | _ => none

/-- What a user said since opening a dialog, after one more update of the user. -/
def Handled.follow (cfg : Config) (cur : Option (Dialog × Said)) (h : Handled) :
    Option (Dialog × Said) :=
  Chanserv.follow cur (opened h.env h.before h.x) (heard cfg h.env h.before h.x)

/-- The dialog a user opened last, and what the user said since. -/
def lastDialog (cfg : Config) (user : Int) (hist : List Handled) : Option (Dialog × Said) :=
  (hist.filter fun h => h.x.fromId = user).foldl (Handled.follow cfg) none

/-! ### Tracking a task -/

/-- What a user gives, or has fixed for him, in a dialog. -/
def NewTask.answers (t : NewTask) : List Text :=
  [t.section_, t.project, t.subj, t.category, t.description, t.consumerName]

/-- Properties of a task in a dialog that depend on its step and its answers, and are not
spoiled by what is said later or by the end of the photos. -/
structure Trackable (I : Dialog → Said → NewTask → Prop) : Prop where
  same : ∀ {d said t t'}, I d said t → t'.stat = t.stat → t'.answers = t.answers → I d said t'
  hear : ∀ {d said t} text, I d said t → I d (said ++ [(t.stat, text)]) t
  photosDone : ∀ {d said t}, I d said t → t.stat = sharedFirstnameStep5 →
    I d said {t with stat := sharedSeparateTeklaFromBimStep6}

/-- The steps in use by dialogs are those from 401 to 607; a task there is in the dialog
last opened, and has the property. -/
def Tracked (I : Dialog → Said → NewTask → Prop) (cur : Option (Dialog × Said)) (t : NewTask) : Prop :=
  t.stat < 401 ∨ 607 < t.stat ∨ ∃ d said, cur = some (d, said) ∧ I d said t

/-- An update of a user whose task is `t` keeps the property where that is not plain. -/
structure Admitted (I : Dialog → Said → NewTask → Prop) (cur : Option (Dialog × Said))
    (opens : Option Dialog) (menu : Prop) (t : NewTask) (x : Update) : Prop where
  start : ∀ d, opens = some d → I d [] (d.start t)
  answer : ∀ m d said question stat, x = .message m → cur = some (d, said) → I d said t →
    questionAt t.stat m.text = some question → stat = t.stat ∨ stat = question.next →
    I d (said ++ [(t.stat, m.text)]) {question.record (question.clean m.text) t with stat}
  menu : menu → ∀ d said, cur = some (d, said) → I d said t → I d said {t with subj := of "Tekla"}

section
variable {I : Dialog → Said → NewTask → Prop} {may : RequiredRole → Prop} {opens : Option Dialog}
  {menu : Prop} {t t' : NewTask} {x : Update} {r : Option Stop} {ns : List Effect}
  {cur : Option (Dialog × Said)} {m : Message}

theorem Tracked.same (hI : Trackable I) (h : Tracked I cur t) (hstat : t'.stat = t.stat)
    (hanswers : t'.answers = t.answers) : Tracked I cur t' := by
  rcases h with h | h | ⟨d, said, hcur, h⟩
  · exact .inl (hstat ▸ h)
  · exact .inr (.inl (hstat ▸ h))
  · exact .inr (.inr ⟨d, said, hcur, hI.same h hstat hanswers⟩)

theorem Tracked.follow (hI : Trackable I) (h : Tracked I cur t) (hopens : opens = none) (x : Update) :
    Tracked I (follow cur opens (hearing t.stat x)) t := by
  subst hopens
  cases x with
  | message m =>
    rcases h with h | h | ⟨d, said, hcur, h⟩
    · exact .inl h
    · exact .inr (.inl h)
    · exact .inr (.inr ⟨d, _, by rw [hcur]; rfl, hI.hear m.text h⟩)
  | _ => exact h

/-- What a message answers at a step of a dialog is one of its questions. -/
theorem mem_questions {d : Dialog} {stat : Nat} {text : Text} {question : Question}
    (hq : questionAt stat text = some question) (hd : stat ∈ d.steps) : (stat, question) ∈ d.questions := by
  have hphoto (hstat : stat = sharedFirstnameStep5) : question = familyProject := by
    rw [hstat, questionAt] at hq
    split at hq
    · cases hq
    · exact (Option.some.inj hq).symm
  have hname : stat ≠ sharedSeparateTeklaFromBimStep6 := by
    intro hstat
    rw [hstat] at hq
    cases hq
  by_cases hstat : stat = sharedFirstnameStep5
  · rw [hphoto hstat, hstat]
    cases d <;> simp [Dialog.questions]
  · cases d
    all_goals
      simp only [Dialog.steps, List.mem_cons, List.not_mem_nil, or_false, hstat, hname] at hd
    case tekla => rcases hd with rfl | rfl <;> cases hq <;> simp [Dialog.questions]
    all_goals rcases hd with rfl | rfl | rfl | rfl <;> cases hq <;> simp [Dialog.questions]

/-- Questions outside of the dialogs lead to steps outside. -/
theorem questionAt_dialog {stat : Nat} {text : Text} {question : Question}
    (h : questionAt stat text = some question) :
    ¬stat < 401 ∧ (607 < stat → 607 < question.next) := by
  unfold questionAt at h
  split at h
  case h_10 =>
    split at h
    · cases h
    · cases h; decide
  case h_11 => cases h
  all_goals cases h; decide

/-- What is tracked stays so by every move the property admits. -/
theorem Moved.tracked (hI : Trackable I) (h : Moved may opens menu t x r ns t') (hr : Alive r)
    (ht : Tracked I cur t) (hx : ∀ m, x = .message m → opens = none)
    (hadmitted : Admitted I cur opens menu t x) :
    Tracked I (follow cur opens (hearing t.stat x)) t' := by
  cases h with
  | kept h | commanded h => exact ht.follow hI h _
  | halted => exact absurd (hr _ rfl) (by decide)
  | cleared | halfOpened => exact .inl (Nat.le_of_ble_eq_true rfl)
  | @opened _ _ d h =>
    subst h
    exact .inr (.inr ⟨d, [], rfl, hadmitted.start d rfl⟩)
  | @answered m _ question stat hq hstat =>
    obtain rfl := hx m rfl
    rcases ht with ht | ht | ⟨d, said, rfl, ht⟩
    · exact absurd ht (questionAt_dialog hq).1
    · refine .inr (.inl ?_)
      rcases hstat with rfl | rfl
      · exact ht
      · exact (questionAt_dialog hq).2 ht
    · exact .inr (.inr ⟨d, _, rfl, hadmitted.answer m d said question stat rfl rfl ht hq hstat⟩)
  | named hstat hstat' =>
    rcases hstat' with rfl | rfl
    · exact .inr (.inl (by show 607 < t.stat; rw [hstat]; decide))
    · exact .inl (Nat.le_of_ble_eq_true rfl)
  | @photographed m => exact (ht.follow hI (hx m rfl) (.message m)).same hI rfl rfl
  | filed _ ht' =>
    rcases ht' with rfl | ⟨⟨stop, hstop, hfatal⟩, -⟩
    · exact .inl (Nat.le_of_ble_eq_true rfl)
    · exact absurd (hr stop hstop) (by rw [hfatal]; decide)
  | @served m _ _ _ _ _ ht' =>
    rcases ht' with rfl | rfl
    · exact ht.follow hI (hx m rfl) _
    · exact .inl (Nat.le_of_ble_eq_true rfl)
  | @serviceOpened _ _ _ stat _ _ hstat =>
    have hbelow : ∀ stat ∈ serviceSteps, stat < 401 := by decide
    exact .inl (hbelow stat hstat)
  | keyAsked => exact .inr (.inl (Nat.le_of_ble_eq_true rfl))
  | photosDone h _ hstat =>
    subst h
    rcases ht with ht | ht | ⟨d, said, rfl, ht⟩
    · rw [hstat] at ht
      exact absurd ht (by decide)
    · rw [hstat] at ht
      exact absurd ht (by decide)
    · exact .inr (.inr ⟨d, said, rfl, hI.photosDone ht hstat⟩)
  | teklaMenu h hm =>
    subst h
    rcases ht with ht | ht | ⟨d, said, rfl, ht⟩
    · exact .inl ht
    · exact .inr (.inl ht)
    · exact .inr (.inr ⟨d, said, rfl, hadmitted.menu hm d said rfl ht⟩)

theorem submitted_cases {task : NewTask} (h : submitted m t = some task) :
    (t.stat = sharedSeparateTeklaFromBimStep6 ∧ m.text ≠ [] ∧ task = completed m t) ∨
      t.stat = sharedFinalStep7 := by
  unfold submitted at h
  split at h
  · next hc => exact .inl ⟨hc.1, hc.2, (Option.some.injEq _ _ ▸ h).symm⟩
  · split at h
    · next hc => exact .inr hc
    · cases h

/-- A task is filed with its user's name, from a dialog that has come to the question for it. -/
theorem Moved.filedFrom (h : Moved may opens menu t x r ns t') {task : NewTask}
    (htask : .createNewIssue task ∈ ns) (ht : Tracked I cur t) (hx : ∀ m, x = .message m → opens = none)
    (hstep : ∀ {d said}, I d said t → t.stat ∈ d.steps) :
    ∃ m d said, x = .message m ∧ m.text ≠ [] ∧ cur = some (d, said) ∧
      t.stat = sharedSeparateTeklaFromBimStep6 ∧ I d said t ∧ task = completed m t ∧
      follow cur opens (hearing t.stat x) = some (d, said ++ [(t.stat, m.text)]) := by
  cases h with
  | @filed m _ task' _ hsub =>
    obtain rfl : task = task' := by simpa using htask
    obtain rfl := hx m rfl
    have hfinal (d : Dialog) : sharedFinalStep7 ∉ d.steps := by cases d <;> decide
    rcases submitted_cases hsub with ⟨hstat, htext, rfl⟩ | hstat
    · rcases ht with ht | ht | ⟨d, said, rfl, ht⟩
      · exact absurd ht (by rw [hstat]; decide)
      · exact absurd ht (by rw [hstat]; decide)
      · exact ⟨m, d, said, rfl, htext, rfl, hstat, ht, rfl, rfl⟩
    · rcases ht with ht | ht | ⟨d, said, -, ht⟩
      · exact absurd ht (by rw [hstat]; decide)
      · exact absurd ht (by rw [hstat]; decide)
      · exact absurd (hstat ▸ hstep ht) (hfinal d)
  | served he =>
    obtain rfl := List.mem_singleton.mp htask
    cases he
  | commanded _ he =>
    obtain rfl := List.mem_singleton.mp htask
    cases he
  | _ => cases htask

end

/-! ### Runs -/

/-- The update keeps the property, whatever session its handler starts with. -/
def Handled.Admitted (I : Dialog → Said → NewTask → Prop) (cfg : Config) (hist : List Handled)
    (h : Handled) : Prop :=
  ∀ u, Arrives h.env.now h.x.fromId h.before u →
    (∀ m, h.x = .message m → heard cfg h.env h.before h.x = some (u.jiraTask.stat, m.text)) →
    Chanserv.Admitted I (lastDialog cfg h.x.fromId hist) (opening h.env u h.x) (entersTekla h.env u h.x)
      u.jiraTask h.x

section
variable {I : Dialog → Said → NewTask → Prop} {cfg : Config} {hist : List Handled} {w w' : World}
  {env : UpdateEnv} {x : Update} {cur : Option (Dialog × Said)} {u : UserDispatcher} {r : Option Stop}

theorem lastDialog_append (user : Int) (h : Handled) :
    lastDialog cfg user (hist ++ [h]) =
      if h.x.fromId = user then h.follow cfg (lastDialog cfg user hist)
      else lastDialog cfg user hist := by
  rw [lastDialog, List.filter_append, List.foldl_append]
  by_cases hu : h.x.fromId = user
  · simp [hu, lastDialog]
  · simp [hu, lastDialog]

theorem Tracked.looked (hI : Trackable I) {now : Int} {u u' : UserDispatcher}
    (h : Tracked I cur u.jiraTask) (hlook : LookedAt now u u') : Tracked I cur u'.jiraTask := by
  rw [hlook.task]
  exact h.same hI rfl rfl

/-- The session a handler starts with. -/
theorem Tracked.arrives (hI : Trackable I) (harr : Arrives env.now x.fromId w u)
    (hw : ∀ u, w.session x.fromId = some u → Tracked I cur u.jiraTask) : Tracked I cur u.jiraTask := by
  cases harr with
  | found hu hlook => exact (hw _ hu).looked hI hlook
  | new htask =>
    rw [htask]
    exact .inl (Nat.le_of_ble_eq_true rfl)

/-- What a run knows about the update that moved a session. -/
theorem follow_of_moved (hopened : opened env w x = opening env u x)
    (hheard : ∀ m, x = .message m → heard cfg env w x = some (u.jiraTask.stat, m.text)) :
    Handled.follow cfg cur ⟨env, x, w⟩ = follow cur (opening env u x) (hearing u.jiraTask.stat x) := by
  rw [Handled.follow, hopened]
  congr 1
  cases x with
  | message m => exact hheard m rfl
  | _ => rfl

theorem opening_message {u : UserDispatcher} : ∀ m, x = .message m → opening env u x = none := by
  rintro m rfl
  rfl

theorem Handles.tracked (hI : Trackable I) (h : Handles cfg env x w r w') (hr : Alive r)
    (hx : Handled.Admitted I cfg hist ⟨env, x, w⟩)
    (hw : ∀ b u, w.session b = some u → Tracked I (lastDialog cfg b hist) u.jiraTask) (b : Int)
    (u' : UserDispatcher) (hu' : w'.session b = some u') :
    Tracked I (lastDialog cfg b (hist ++ [⟨env, x, w⟩])) u'.jiraTask := by
  rw [lastDialog_append]
  by_cases hb : x.fromId = b
  · rw [if_pos hb]
    subst hb
    cases h.own with
    | idle hheard hopened _ _ hs =>
      rw [Handled.follow, hopened, hheard]
      rcases hs with hs | ⟨u₀, u₁, hs, hs', hlook⟩
      · exact hw _ u' (hs ▸ hu')
      · rw [hs', Option.some.injEq] at hu'
        exact hu' ▸ (hw _ u₀ hs).looked hI hlook
    | @moved u₁ u₂ _ _ harr hs' hheard hopened _ _ hmoved =>
      rw [hs', Option.some.injEq] at hu'
      rw [follow_of_moved hopened hheard, ← hu']
      exact hmoved.tracked hI hr (.arrives hI harr (hw x.fromId)) opening_message (hx u₁ harr hheard)
  · rw [if_neg hb]
    cases h.others b (Ne.symm hb) with
    | kept hs => exact hw b u' (hs ▸ hu')
    | decided _ _ _ _ hs hs' hlook =>
      rw [hs', Option.some.injEq] at hu'
      exact hu' ▸ (hw b _ hs).looked hI hlook
    | evicted _ he =>
      obtain ⟨-, -, -, hs⟩ := he
      rw [hs] at hu'
      cases hu'

/-- What all updates of a run keep holds of every session in it. -/
theorem Run.tracked (hI : Trackable I) (hr : Run cfg hist w)
    (hall : ∀ earlier h later, hist = earlier ++ h :: later → Handled.Admitted I cfg earlier h) (b : Int)
    (u : UserDispatcher) (hu : w.session b = some u) : Tracked I (lastDialog cfg b hist) u.jiraTask := by
  refine hr.induct (P := fun hist w =>
    (∀ earlier h later, hist = earlier ++ h :: later → Handled.Admitted I cfg earlier h) →
      ∀ b u, w.session b = some u → Tracked I (lastDialog cfg b hist) u.jiraTask) ?_ ?_ ?_ hall b u hu
  · intro sh _ _ b u hu
    cases hu
  · intro hist w _ ih env x w' halive _ hh hall
    obtain ⟨hbefore, hlast⟩ := forall_split_concat.mp hall
    exact hh.tracked hI halive hlast (ih hbefore)
  · intro hist w w' _ ih ha hall b u hu
    exact ih hall b u (ha.session b ▸ hu)

/-- A task filed after such a run comes from a dialog at its last question. -/
theorem Run.filedFrom (hI : Trackable I) (hr : Run cfg hist w)
    (hall : ∀ earlier h later, hist = earlier ++ h :: later → Handled.Admitted I cfg earlier h)
    (hstep : ∀ {d said t}, I d said t → t.stat ∈ d.steps) {task : NewTask}
    (htask : .createNewIssue task ∈ Handled.effects cfg ⟨env, x, w⟩) :
    ∃ m d said t, x = .message m ∧ m.text ≠ [] ∧ t.stat = sharedSeparateTeklaFromBimStep6 ∧
      I d said t ∧ task = completed m t ∧
      lastDialog cfg x.fromId (hist ++ [⟨env, x, w⟩]) = some (d, said ++ [(t.stat, m.text)]) := by
  have hstaff {ks : List Effect} (hks : Decisions cfg x ks) (hk : .createNewIssue task ∈ ks) : False :=
    absurd (hks _ hk).1 (by simp)
  cases (handleUpdate_handles cfg env x w).own with
  | idle _ _ hnotes hks =>
    rw [Handled.effects, hnotes, List.drop_left] at htask
    exact (hstaff hks htask).elim
  | @moved u₁ _ ks ns harr _ hheard hopened hnotes hks hmoved =>
    rw [Handled.effects, hnotes, List.append_assoc, List.drop_left] at htask
    have hfiled := (List.mem_append.mp htask).resolve_left (hstaff hks)
    have htracked := Tracked.arrives hI harr (hr.tracked hI hall x.fromId)
    obtain ⟨m, d, said, hm, htext, -, hstat, ht, hcompleted, hfollow⟩ :=
      hmoved.filedFrom hfiled htracked opening_message hstep
    refine ⟨m, d, said, u₁.jiraTask, hm, htext, hstat, ht, hcompleted, ?_⟩
    rw [lastDialog_append, if_pos rfl, follow_of_moved hopened hheard, hfollow]

end

end Chanserv
