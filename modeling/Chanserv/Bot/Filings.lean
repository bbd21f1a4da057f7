import Chanserv.Bot.Answers
import Mathlib.Data.List.Induction

/-! When a task is filed.

A task is filed at the end of a dialog: since it was opened its user has answered
all questions in their order, has ended the photos and has given a name. Filing
ends the dialog, so that an opening is good for one task. -/
namespace Chanserv
open Text Program

/-- The steps a session is at between two updates. The last step of a dialog is taken and left within one. -/
def restingSteps : List Nat :=
  0 :: serviceSteps ++
    [taskSectionStep1, taskProjectStep2, taskSubjStep3, taskDescrStep4,
      familyUnitStep1, familyCategoryStep2, familyDescrStep3, familyProjectStep4,
      sharedFirstnameStep5, sharedSeparateTeklaFromBimStep6,
      revitMasterKeyReasonStep1, revitMasterKeyFirstnameStep2]

/-- What a user does in a dialog: a message at a step, or an end to the photos. -/
inductive Act where
  | wrote (step : Nat)
  | photosDone
deriving DecidableEq, Repr

namespace Dialog

/-- The steps that ask for a text, but for the name. -/
def textSteps : Dialog → List Nat
  | task => [taskSectionStep1, taskProjectStep2, taskSubjStep3, taskDescrStep4]
  | family => [familyUnitStep1, familyCategoryStep2, familyDescrStep3, familyProjectStep4]
  | tekla => [taskSubjStep3, taskDescrStep4]

/-- The way through a dialog to the question for the name. -/
def path (d : Dialog) : List Act := d.textSteps.map .wrote ++ [.photosDone]

/-- The part of the way that leads to a step. -/
def pathTo (d : Dialog) (stat : Nat) : List Act :=
  if stat = sharedSeparateTeklaFromBimStep6 then d.path
  else (d.textSteps.filter fun step => step < stat).map .wrote

end Dialog

def Effect.newTask : Effect → Option NewTask
  | .createNewIssue task => some task
  | _ => none

namespace Handled

/-- The tasks `create_new_issue` is started with. -/
def filings (cfg : Config) (h : Handled) : List NewTask := (h.effects cfg).filterMap Effect.newTask

/-- The photos are ended at the step for photos. -/
def PhotosDone (h : Handled) : Prop :=
  match h.x with
  | .callback q => buttonOf q.data = some .noMorePhotos ∧
    (h.before.session q.from_.id).map (·.jiraTask.stat) = some sharedFirstnameStep5
  | _ => False

instance (h : Handled) : Decidable h.PhotosDone := by
  unfold PhotosDone
  split <;> infer_instance

def acts (cfg : Config) (h : Handled) : List Act :=
  ((heard cfg h.env h.before h.x).map fun e => .wrote e.1).toList ++ if h.PhotosDone then [.photosDone] else []

end Handled

/-- The dialog a user has open, and what he did in it, after one more update of his. -/
def proceed (cur : Option (Dialog × List Act)) (opens : Option Dialog) (filings : List NewTask) (acts : List Act) :
    Option (Dialog × List Act) :=
  match opens with
  | some d => some (d, [])
  | none => if filings = [] then cur.map fun c => (c.1, c.2 ++ acts) else none

/-- The same, over a history. -/
def pendingDialog (cfg : Config) (user : Int) (hist : List Handled) : Option (Dialog × List Act) :=
  hist.foldl (fun cur h => if h.x.fromId = user then
    proceed cur (opened h.env h.before h.x) (h.filings cfg) (h.acts cfg) else cur) none

/-- At a step of a dialog, the dialog is open and its user has come the way to the step. -/
def OnPath (cur : Option (Dialog × List Act)) (stat : Nat) : Prop :=
  (stat < 401 ∨ 607 < stat) ∨ ∃ d acts, cur = some (d, acts) ∧ stat ∈ d.steps ∧ (d.pathTo stat).Sublist acts

/-! ### One move -/

section
variable {cur : Option (Dialog × List Act)} {d : Dialog} {stat : Nat} {text : Text} {as : List Act}

theorem OnPath.more (h : OnPath cur stat) (as : List Act) : OnPath (proceed cur none [] as) stat := by
  rcases h with h | ⟨d, acts, rfl, hstep, hpath⟩
  · exact .inl h
  · exact .inr ⟨d, acts ++ as, rfl, hstep, hpath.trans (List.sublist_append_left ..)⟩

/-- An answer to a question leads on by one step. -/
theorem pathTo_next {question : Question} (hq : questionAt stat text = some question) (hd : stat ∈ d.steps) :
    question.next ∈ d.steps ∧ (d.pathTo question.next).Sublist (d.pathTo stat ++ [.wrote stat]) := by
  have hmem := mem_questions hq hd
  cases d
  all_goals
    simp only [Dialog.questions, List.mem_cons, List.not_mem_nil, or_false, Prod.mk.injEq] at hmem
  case tekla => rcases hmem with ⟨rfl, rfl⟩ | ⟨rfl, rfl⟩ | ⟨rfl, rfl⟩ <;> decide
  all_goals rcases hmem with ⟨rfl, rfl⟩ | ⟨rfl, rfl⟩ | ⟨rfl, rfl⟩ | ⟨rfl, rfl⟩ | ⟨rfl, rfl⟩ <;> decide

theorem pathTo_photosDone (d : Dialog) :
    sharedSeparateTeklaFromBimStep6 ∈ d.steps ∧
      d.pathTo sharedSeparateTeklaFromBimStep6 = d.pathTo sharedFirstnameStep5 ++ [.photosDone] := by
  cases d <;> decide

theorem pathTo_start (d : Dialog) (t : NewTask) : (d.start t).stat ∈ d.steps ∧ d.pathTo (d.start t).stat = [] := by
  cases d
  case task => exact ⟨(by decide : taskSectionStep1 ∈ _), (by decide : Dialog.pathTo _ taskSectionStep1 = _)⟩
  case family => exact ⟨(by decide : familyUnitStep1 ∈ _), (by decide : Dialog.pathTo _ familyUnitStep1 = _)⟩
  case tekla => exact ⟨(by decide : taskSubjStep3 ∈ _), (by decide : Dialog.pathTo _ taskSubjStep3 = _)⟩

variable {may : RequiredRole → Prop} {opens : Option Dialog} {menu : Prop} {t t' : NewTask}
  {x : Update} {r : Option Stop} {ns : List Effect}

theorem newTask_eq_none {e : Effect} {role : RequiredRole} (he : e.privilege = some role) : e.newTask = none := by
  cases e <;> first | rfl | cases he

/-- What an update at a step is in the way through a dialog. -/
def acting (stat : Nat) : Update → List Act
  | .message _ => [.wrote stat]
  | .callback q => if buttonOf q.data = some .noMorePhotos ∧ stat = sharedFirstnameStep5 then [.photosDone] else []
  | _ => []

theorem questionAt_rests {question : Question} (hq : questionAt stat text = some question) :
    question.next ∈ restingSteps := by
  unfold questionAt at hq
  split at hq
  case h_10 =>
    split at hq
    · cases hq
    · cases hq
      decide
  case h_11 => cases hq
  all_goals
    cases hq
    decide

/-- A session rests at one of the steps. -/
theorem Moved.rests (h : Moved may opens menu t x r ns t') (halive : Alive r) (ht : t.stat ∈ restingSteps) :
    t'.stat ∈ restingSteps := by
  have hzero : 0 ∈ restingSteps := List.mem_cons_self ..
  cases h with
  | kept | photographed | commanded | teklaMenu => exact ht
  | halted => exact absurd (halive _ rfl) (by decide)
  | cleared | halfOpened => exact hzero
  | @opened _ _ d _ => cases d <;> exact of_decide_eq_true rfl
  | answered hq hstat =>
    rcases hstat with rfl | rfl
    · exact ht
    · exact questionAt_rests hq
  | named _ hstat =>
    rcases hstat with rfl | rfl
    · exact ht
    · exact hzero
  | filed _ ht' =>
    rcases ht' with rfl | ⟨⟨stop, hstop, hfatal⟩, -⟩
    · exact hzero
    · exact absurd (halive stop hstop) (by rw [hfatal]; decide)
  | served _ _ ht' =>
    rcases ht' with rfl | rfl
    · exact ht
    · exact hzero
  | @serviceOpened _ _ _ stat _ _ hstat =>
    exact List.mem_cons_of_mem _ (List.mem_append_left _ hstat)
  | keyAsked | photosDone => exact of_decide_eq_true rfl

/-- A session stays on the way. -/
theorem Moved.onPath (h : Moved may opens menu t x r ns t') (halive : Alive r) (hx : ∀ m, x = .message m → opens = none)
    (ht : OnPath cur t.stat) (has : (acting t.stat x).Sublist as) :
    OnPath (proceed cur opens (ns.filterMap Effect.newTask) as) t'.stat := by
  cases h with
  | kept hopens | commanded hopens he =>
    rw [hopens]
    first
      | exact ht.more as
      | rw [List.filterMap_cons_none (newTask_eq_none he)]; exact ht.more as
  | halted => exact absurd (halive _ rfl) (by decide)
  | cleared | halfOpened => exact .inl (.inl (Nat.le_of_ble_eq_true rfl))
  | @opened _ _ d hopens =>
    rw [hopens]
    obtain ⟨hstep, hpath⟩ := pathTo_start d t
    exact .inr ⟨d, [], rfl, hstep, by rw [hpath]⟩
  | @answered m _ question stat hq hstat =>
    rw [hx m rfl]
    rcases hstat with rfl | rfl
    · exact ht.more as
    · rcases ht with (hlow | hhigh) | ⟨d, acts, rfl, hstep, hpath⟩
      · exact absurd hlow (questionAt_dialog hq).1
      · exact .inl (.inr ((questionAt_dialog hq).2 hhigh))
      · obtain ⟨hstep', hpath'⟩ := pathTo_next hq hstep
        exact .inr ⟨d, acts ++ as, rfl, hstep', hpath'.trans (hpath.append has)⟩
  | @named m _ stat hstep hstat =>
    rcases hstat with rfl | rfl
    · exact .inl (.inr (by rw [hstep]; decide))
    · exact .inl (.inl (Nat.le_of_ble_eq_true rfl))
  | @photographed m =>
    rw [hx m rfl]
    exact ht.more as
  | filed _ ht' =>
    rcases ht' with rfl | ⟨⟨stop, hstop, hfatal⟩, -⟩
    · exact .inl (.inl (Nat.le_of_ble_eq_true rfl))
    · exact absurd (halive stop hstop) (by rw [hfatal]; decide)
  | @served m _ _ _ he _ ht' =>
    rw [hx m rfl, List.filterMap_cons_none (newTask_eq_none he)]
    rcases ht' with rfl | rfl
    · exact ht.more as
    · exact .inl (.inl (Nat.le_of_ble_eq_true rfl))
  | @serviceOpened _ _ _ stat _ _ hstat =>
    have hbelow : ∀ stat ∈ serviceSteps, stat < 401 := by decide
    exact .inl (.inl (hbelow stat hstat))
  | keyAsked => exact .inl (.inr (Nat.le_of_ble_eq_true rfl))
  | photosDone hopens hbutton hstat =>
    rw [hopens]
    rcases ht with (hlow | hhigh) | ⟨d, acts, rfl, -, hpath⟩
    · rw [hstat] at hlow
      exact absurd hlow (by decide)
    · rw [hstat] at hhigh
      exact absurd hhigh (by decide)
    · obtain ⟨hstep, hpath'⟩ := pathTo_photosDone d
      rw [acting, if_pos ⟨hbutton, hstat⟩] at has
      rw [hstat] at hpath
      refine .inr ⟨d, acts ++ as, rfl, hstep, ?_⟩
      show (d.pathTo sharedSeparateTeklaFromBimStep6).Sublist _
      rw [hpath']
      exact hpath.append has
  | teklaMenu hopens =>
    rw [hopens]
    exact ht.more as

/-- A task is filed with a name given at the end of the way. -/
theorem Moved.files (h : Moved may opens menu t x r ns t') (ht : OnPath cur t.stat) (hrests : t.stat ∈ restingSteps) :
    ns.filterMap Effect.newTask = [] ∨ ∃ m task d acts, ns.filterMap Effect.newTask = [task] ∧ x = .message m ∧
      t.stat = sharedSeparateTeklaFromBimStep6 ∧ m.text ≠ [] ∧ cur = some (d, acts) ∧ d.path.Sublist acts := by
  cases h with
  | @filed m _ task _ hsub =>
    have hstat : t.stat = sharedSeparateTeklaFromBimStep6 ∧ m.text ≠ [] := by
      rcases submitted_cases hsub with ⟨hstat, htext, -⟩ | hlast
      · exact ⟨hstat, htext⟩
      · rw [hlast] at hrests
        exact absurd hrests (by decide)
    rcases ht with (hlow | hhigh) | ⟨d, acts, hcur, -, hpath⟩
    · rw [hstat.1] at hlow
      exact absurd hlow (by decide)
    · rw [hstat.1] at hhigh
      exact absurd hhigh (by decide)
    · rw [hstat.1, Dialog.pathTo, if_pos rfl] at hpath
      exact .inr ⟨m, task, d, acts, rfl, rfl, hstat.1, hstat.2, hcur, hpath⟩
  | served he | commanded _ he => exact .inl (List.filterMap_cons_none (newTask_eq_none he))
  | _ => exact .inl rfl

end

/-! ### Runs -/

/-- The update ends a dialog: since the last opening by its user, who has filed nothing since, he has
come the whole way, and now gives a name. -/
def EndsDialog (cfg : Config) (hist : List Handled) (h : Handled) : Prop :=
  ∃ earlier o since d, hist = earlier ++ o :: since ∧
    o.x.fromId = h.x.fromId ∧ opened o.env o.before o.x = some d ∧
    (∀ e ∈ since, e.x.fromId = h.x.fromId → opened e.env e.before e.x = none ∧ e.filings cfg = []) ∧
    d.path.Sublist ((since.filter fun e => e.x.fromId = h.x.fromId).flatMap (Handled.acts cfg)) ∧
    ∃ text, heard cfg h.env h.before h.x = some (sharedSeparateTeklaFromBimStep6, text) ∧ text ≠ []

section
variable {cfg : Config} {hist : List Handled} {w w' : World} {env : UpdateEnv} {x : Update} {r : Option Stop}
  {user : Int} {h : Handled}

theorem pendingDialog_append (hist : List Handled) (h : Handled) :
    pendingDialog cfg user (hist ++ [h]) =
      if h.x.fromId = user then
        proceed (pendingDialog cfg user hist) (opened h.env h.before h.x) (h.filings cfg) (h.acts cfg)
      else pendingDialog cfg user hist := by
  rw [pendingDialog, List.foldl_append]
  rfl

/-- A pending dialog has been opened last, and nothing was filed since. -/
theorem pendingDialog_split {d : Dialog} {acts : List Act} (h : pendingDialog cfg user hist = some (d, acts)) :
    ∃ earlier o since, hist = earlier ++ o :: since ∧ o.x.fromId = user ∧ opened o.env o.before o.x = some d ∧
      (∀ e ∈ since, e.x.fromId = user → opened e.env e.before e.x = none ∧ e.filings cfg = []) ∧
      acts = (since.filter fun e => e.x.fromId = user).flatMap (Handled.acts cfg) := by
  induction hist using List.reverseRecOn generalizing d acts with
  | nil => cases h
  | append_singleton hist e ih =>
    rw [pendingDialog_append] at h
    by_cases huser : e.x.fromId = user
    · rw [if_pos huser] at h
      unfold proceed at h
      cases hopened : opened e.env e.before e.x with
      | some d' =>
        rw [hopened] at h
        cases h
        exact ⟨hist, e, [], rfl, huser, hopened, fun _ h => absurd h List.not_mem_nil, rfl⟩
      | none =>
        rw [hopened] at h
        dsimp only at h
        split at h
        case isFalse => cases h
        next hnone =>
          obtain ⟨⟨d', acts'⟩, hpending, hboth⟩ := Option.map_eq_some_iff.mp h
          cases hboth
          obtain ⟨earlier, o, since, rfl, ho, hd, hsince, rfl⟩ := ih hpending
          refine ⟨earlier, o, since ++ [e], by simp, ho, hd, ?_, by simp [huser]⟩
          rw [List.forall_mem_append]
          refine ⟨hsince, fun e' he' _ => ?_⟩
          obtain rfl := List.mem_singleton.mp he'
          exact ⟨hopened, hnone⟩
    · rw [if_neg huser] at h
      obtain ⟨earlier, o, since, rfl, ho, hd, hsince, hacts⟩ := ih h
      refine ⟨earlier, o, since ++ [e], by simp, ho, hd, ?_, by simp [huser, hacts]⟩
      rw [List.forall_mem_append]
      refine ⟨hsince, fun e' he' hfrom => ?_⟩
      obtain rfl := List.mem_singleton.mp he'
      exact absurd hfrom huser

/-- What an update is in a dialog is seen from outside. -/
theorem acting_sublist {u : UserDispatcher} (harr : Arrives env.now x.fromId w u)
    (hheard : ∀ m, x = .message m → heard cfg env w x = some (u.jiraTask.stat, m.text)) :
    (acting u.jiraTask.stat x).Sublist (Handled.acts cfg ⟨env, x, w⟩) := by
  cases x with
  | command => exact List.nil_sublist _
  | message m =>
    rw [Handled.acts, hheard m rfl]
    exact List.sublist_append_left ..
  | callback q =>
    rw [acting]
    split
    case isFalse => exact List.nil_sublist _
    next hdone =>
      have hphotos : (⟨env, .callback q, w⟩ : Handled).PhotosDone := by
        refine ⟨hdone.1, ?_⟩
        cases harr with
        | found hu hlook =>
          rw [show w.session q.from_.id = some _ from hu, Option.map_some, ← hdone.2, hlook.task]
        | new htask _ =>
          rw [htask] at hdone
          exact absurd hdone.2 (by decide)
      rw [Handled.acts, if_pos hphotos]
      exact List.sublist_append_right ..

theorem filings_of_moved {ks ns : List Effect} (hks : Decisions cfg x ks)
    (hnotes : (final (handleUpdate cfg env x) w).sh.notes = w.sh.notes ++ ks ++ ns) :
    Handled.filings cfg ⟨env, x, w⟩ = ns.filterMap Effect.newTask := by
  have hnone : ks.filterMap Effect.newTask = [] := by
    rw [List.filterMap_eq_nil_iff]
    exact fun e he => newTask_eq_none (hks e he).1
  rw [Handled.filings, Handled.effects, hnotes, List.append_assoc, List.drop_left, List.filterMap_append, hnone,
    List.nil_append]

theorem filings_of_idle {ks : List Effect} (hks : Decisions cfg x ks)
    (hnotes : (final (handleUpdate cfg env x) w).sh.notes = w.sh.notes ++ ks) :
    Handled.filings cfg ⟨env, x, w⟩ = [] := by
  have hsame : (final (handleUpdate cfg env x) w).sh.notes = w.sh.notes ++ ks ++ [] := by
    rw [hnotes, List.append_nil]
  exact filings_of_moved hks hsame

/-- What is known of every session. -/
def Placed (cfg : Config) (hist : List Handled) (w : World) : Prop :=
  ∀ b u, w.session b = some u → u.jiraTask.stat ∈ restingSteps ∧ OnPath (pendingDialog cfg b hist) u.jiraTask.stat

/-- The session a handler starts with. -/
theorem Placed.arrives {u : UserDispatcher} (hw : Placed cfg hist w) (harr : Arrives env.now x.fromId w u) :
    u.jiraTask.stat ∈ restingSteps ∧ OnPath (pendingDialog cfg x.fromId hist) u.jiraTask.stat := by
  cases harr with
  | found hu hlook =>
    rw [hlook.task]
    exact hw _ _ hu
  | new htask _ =>
    rw [htask]
    exact ⟨List.mem_cons_self .., .inl (.inl (Nat.le_of_ble_eq_true rfl))⟩

/-- An update keeps every session in its place. -/
theorem Handles.placed (hh : Handles cfg env x w r w') (hr : Alive r) (hw' : w' = final (handleUpdate cfg env x) w)
    (hw : Placed cfg hist w) : Placed cfg (hist ++ [⟨env, x, w⟩]) w' := by
  intro b u' hu'
  have hlooked {u u' : UserDispatcher} (hlook : LookedAt env.now u u') : u'.jiraTask.stat = u.jiraTask.stat := by
    rw [hlook.task]
  rw [pendingDialog_append]
  by_cases hb : x.fromId = b
  · rw [if_pos hb]
    subst hb
    cases hh.own with
    | idle hheard hopened hnotes hks hs =>
      rw [hopened, filings_of_idle hks (by rw [← hnotes, hw'])]
      rcases hs with hs | ⟨u₀, u₁, hs, hs', hlook⟩
      · obtain ⟨hrests, hpath⟩ := hw _ u' (hs ▸ hu')
        exact ⟨hrests, hpath.more _⟩
      · rw [hs', Option.some.injEq] at hu'
        obtain ⟨hrests, hpath⟩ := hw _ u₀ hs
        rw [← hu', hlooked hlook]
        exact ⟨hrests, hpath.more _⟩
    | @moved u₁ u₂ ks ns harr hs' hheard hopened hnotes hks hmoved =>
      obtain ⟨hrests, hpath⟩ := hw.arrives harr
      rw [hs', Option.some.injEq] at hu'
      rw [← hu', hopened, filings_of_moved hks (by rw [← hnotes, hw'])]
      exact ⟨hmoved.rests hr hrests, hmoved.onPath hr opening_message hpath (acting_sublist harr hheard)⟩
  · rw [if_neg hb]
    cases hh.others b (Ne.symm hb) with
    | kept hs => exact hw b u' (hs ▸ hu')
    | decided _ _ _ _ hs hs' hlook =>
      rw [hs', Option.some.injEq] at hu'
      rw [← hu', hlooked hlook]
      exact hw b _ hs
    | evicted _ he =>
      obtain ⟨-, -, -, hs⟩ := he
      rw [hs] at hu'
      cases hu'

theorem Run.placed (hr : Run cfg hist w) : Placed cfg hist w := by
  refine hr.induct (P := Placed cfg) ?_ ?_ ?_
  · intro sh _ b u hu
    cases hu
  · exact fun hist w _ hw env x w' halive hw' hh => hh.placed halive hw' hw
  · intro hist w w' _ hw ha b u hu
    exact hw b u (ha.session b ▸ hu)

/-- In every run a session rests at one of the steps, and an update files one task at most,
at the end of a dialog that was opened for it. -/
theorem filed_once_per_dialog (hr : Run cfg hist w) :
    (∀ b u, w.session b = some u → u.jiraTask.stat ∈ restingSteps) ∧
    ∀ env x, Handled.filings cfg ⟨env, x, w⟩ = [] ∨
      (Handled.filings cfg ⟨env, x, w⟩).length = 1 ∧ EndsDialog cfg hist ⟨env, x, w⟩ := by
  have hw := hr.placed
  refine ⟨fun b u hu => (hw b u hu).1, fun env x => ?_⟩
  cases (handleUpdate_handles cfg env x w).own with
  | idle _ _ hnotes hks _ => exact .inl (filings_of_idle hks hnotes)
  | @moved u _ ks ns harr _ hheard _ hnotes hks hmoved =>
    obtain ⟨hrests, hpath⟩ := hw.arrives harr
    rw [filings_of_moved hks hnotes]
    rcases hmoved.files hpath hrests with hnone | ⟨m, task, d, acts, hfiled, rfl, hstat, htext, hpending, hway⟩
    · exact .inl hnone
    · obtain ⟨earlier, o, since, hsplit, ho, hd, hsince, rfl⟩ := pendingDialog_split hpending
      refine .inr ⟨by rw [hfiled]; rfl, earlier, o, since, d, hsplit, ho, hd, hsince, hway, m.text, ?_, htext⟩
      rw [← hstat]
      exact hheard m rfl

end

/-- A dialog from its opening to the name. -/
theorem filed_once_per_dialog_task :
    let (hist, w) := played {} (taskAnswers ++ [noMorePhotos]) {}
    (Handled.filings {} ⟨.calm 0, lastAnswer, w⟩).length = 1 ∧ EndsDialog {} hist ⟨.calm 0, lastAnswer, w⟩ := by
  have hstart : Run {} [] {} := .start rfl
  have halive : survives {} (taskAnswers ++ [noMorePhotos]) {} = true := by decide +kernel
  exact ((filed_once_per_dialog (hstart.played halive)).2 (.calm 0) lastAnswer).resolve_left (by decide +kernel)

end Chanserv
