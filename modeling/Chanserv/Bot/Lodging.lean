import Chanserv.Bot.Ending
import Chanserv.Bot.FiledRows
import Mathlib.Data.List.Induction

/-! A user can file a task.

Whatever state his session is in: /start gives him a menu, a button of the menu
opens a dialog, each message answers its question and brings the next one, and with
his name the task is written to the table, as he said it. Between his turns anything
may happen that leaves his task and his last menu alone. -/
namespace Chanserv
open Text Program

/-! ### The row -/

section
variable {cfg : Config} {env : CreateIssueEnv} {task : NewTask} {c d : Chat} {table : List IssueRow × Int}

/-- The table of issues with one more row. -/
def Db.filed (db : Db) (task : NewTask) : List IssueRow × Int :=
  (db.issues ++ [{rowOfTask task with id := db.nextIssueId}], db.nextIssueId + 1)

end

/-! ### One update -/

/-- A task after an answer. -/
def Question.answered (question : Question) (text : Text) (t : NewTask) : NewTask :=
  {question.record (question.clean text) t with stat := question.next}

section
variable {cfg : Config} {env : UpdateEnv} {q : CallbackQuery} {m : Message} {me : Int} {c : Chat} {t : NewTask} {w : World}

/-- The question of a step is asked. -/
theorem answerStep_asks {stenv : SmallTalkEnv} {question : Question} {stat : Nat} (h : questionAt stat m.text = some question) :
    ∃ receiver, answerStep cfg stenv m stat = question.ask stenv receiver m.text := by
  unfold questionAt at h
  split at h
  case h_10 =>
    split at h
    · cases h
    · next htext =>
      cases h
      refine ⟨m.chat.id, ?_⟩
      show sharedFirstname cfg stenv m = _
      rw [sharedFirstname, if_neg htext]
  case h_11 => cases h
  all_goals
    cases h
    exact ⟨_, rfl⟩

/-- A message comes to the session of its user, unless that has expired. -/
theorem wp_ownMessage {Q : Unit → World → Prop} {E : Stop → World → Prop} {u : UserDispatcher}
    (hdispatcher : env.dispatcher.Answers) (hu : w.session m.from_.id = some u) (hawake : ¬w.Expires cfg env.now m.from_.id)
    (h : ∀ sh : Shared, sh.table = w.sh.table →
      wp (smallTalk cfg env.smallTalk m) (fun a c => ∀ w', w'.At m.from_.id c → Q a w')
        (fun stop c => ∀ w', w'.At m.from_.id c → E stop w') ⟨{u with lastActivity := env.now}, sh⟩) :
    wp (handleUpdate cfg env (.message m)) Q E w := by
  have harrival : w.arrival cfg env.now m = {u with lastActivity := env.now} := by
    rw [World.arrival, if_neg hawake, hu, Option.elim_some]
  rw [handleUpdate, wp_bind]
  refine wp_mono (wp_and (sessionDispatcher_completes hdispatcher) (sessionDispatcher_arrives Shared.table)) ?_
    fun _ _ hf => hf.1.elim
  rintro _ w₁ ⟨-, hat, htable⟩
  rw [handleSmallTalk]
  refine wp_ownSession hat _ fun w₂ hat₂ _ => wp_onSession hat₂ ?_
  rw [harrival]
  exact wp_mono (h w₁.sh htable) (fun _ _ hc w' hat' _ => hc w' hat') fun _ _ hc w' hat' _ => hc w' hat'

/-- An answer is recorded, and the next question asked. -/
theorem message_answers {question : Question} (hdispatcher : env.dispatcher.Answers) (hprompt : env.smallTalk.prompt.Normal)
    (hawake : ¬w.Expires cfg env.now m.from_.id) (hq : questionAt t.stat m.text = some question)
    (ht : w.Has m.from_.id fun u => u.jiraTask = t) :
    wp (handleUpdate cfg env (.message m)) (fun _ w' => w'.Has m.from_.id fun u => u.jiraTask = question.answered m.text t)
      (fun _ _ => False) w := by
  obtain ⟨u, hu, rfl⟩ := ht
  obtain ⟨receiver, hask⟩ := @answerStep_asks cfg m env.smallTalk question u.jiraTask.stat hq
  refine wp_ownMessage hdispatcher hu hawake fun sh _ => ?_
  rw [smallTalk, wp_bind, wp_get, wp_ite]
  have hrole : cfg.hasRole m.from_.id (roleForStep u.jiraTask.stat) := by
    rw [roleForStep_dialog (.inr (Nat.le_of_not_lt (questionAt_dialog hq).1))]
    exact isAllowed_anyone _ _
  refine ⟨fun _ => ?_, fun hn => absurd hrole hn⟩
  show wp (answerStep cfg env.smallTalk m u.jiraTask.stat) _ _ _
  rw [hask, Question.ask, wp_bind, wp_modifyTask, wp_bind, wp_service, wp_call]
  refine ⟨fun _ _ => ?_, fun x hx => (hprompt.not_throws hx).elim⟩
  rw [wp_modifyTask]
  exact fun w' hat => hat.has rfl

/-- The button of the menu that opens a dialog. -/
def Dialog.button : Dialog → Button
  | .task => .newTask
  | .family => .newFamily
  | .tekla => .teklaGeneralIssue

end

/-! ### The dialog -/

/-- A message of the user, and what happened since his last update. -/
structure Saying where
  meanwhile : List Deed
  env : UpdateEnv
  message : Message

def Saying.deeds (saying : Saying) : List Deed := saying.meanwhile ++ [.update saying.env (.message saying.message)]

/-- The task after a message at its step. -/
def NewTask.answer (t : NewTask) (text : Text) : NewTask :=
  match questionAt t.stat text with
  | some question => question.answered text t
  | none => t

/-- The task of a dialog after these messages. -/
def Dialog.told (d : Dialog) (texts : List Text) : NewTask := texts.foldl NewTask.answer (d.start {})

/-- The task of a user is as it was. -/
def SameTask (me : Int) (w w' : World) : Prop :=
  (w'.session me).map UserDispatcher.jiraTask = (w.session me).map UserDispatcher.jiraTask

/-- The messages are the user's and come to his session: his task is left alone meanwhile, he is not too
late, and what is sent back is delivered. -/
def Heard (cfg : Config) (me : Int) (w : World) : List Saying → Prop
  | [] => True
  | saying :: sayings =>
    let v := w.lived cfg saying.meanwhile
    saying.message.from_.id = me ∧ SameTask me w v ∧ ¬v.Expires cfg saying.env.now me ∧ saying.env.dispatcher.Answers ∧
      saying.env.smallTalk.prompt.Normal ∧ Heard cfg me (w.lived cfg saying.deeds) sayings

section
variable {cfg : Config} {me : Int} {d : Dialog} {t : NewTask} {w w' : World} {text : Text} {texts : List Text}
  {sayings : List Saying}

theorem SameTask.refl (me : Int) (w : World) : SameTask me w w := rfl

theorem SameTask.has (h : SameTask me w w') (hw : w.Has me fun u => u.jiraTask = t) :
    w'.Has me fun u => u.jiraTask = t := by
  obtain ⟨u, hu, rfl⟩ := hw
  unfold SameTask at h
  rw [hu] at h
  exact Option.map_eq_some_iff.mp h

theorem Dialog.told_concat (texts : List Text) (text : Text) : d.told (texts ++ [text]) = (d.told texts).answer text := by
  rw [Dialog.told, List.foldl_append]
  rfl

/-- Four messages lead to the photos, each to the next question. -/
theorem Dialog.told_step (hd : d ≠ .tekla) (htexts : texts.length ≤ 4) :
    d.steps[texts.length]? = some (d.told texts).stat := by
  induction texts using List.reverseRecOn with
  | nil => cases d <;> rfl
  | append_singleton texts text ih =>
    rw [List.length_append, List.length_singleton] at htexts
    have hstep := ih (by omega)
    have hlength : texts.length < 4 := by omega
    rw [Dialog.told_concat, NewTask.answer, List.length_append, List.length_singleton]
    generalize d.told texts = t at hstep ⊢
    generalize texts.length = k at hlength hstep ⊢
    obtain rfl | rfl | rfl | rfl : k = 0 ∨ k = 1 ∨ k = 2 ∨ k = 3 := by omega
    all_goals
      cases d with
      | tekla => exact absurd rfl hd
      | _ =>
        rw [← Option.some.inj hstep]
        rfl

theorem Dialog.told_asks (hd : d ≠ .tekla) (htexts : texts.length < 4) (text : Text) :
    ∃ question, questionAt (d.told texts).stat text = some question := by
  have hstep := Dialog.told_step hd htexts.le
  generalize texts.length = k at htexts hstep
  obtain rfl | rfl | rfl | rfl : k = 0 ∨ k = 1 ∨ k = 2 ∨ k = 3 := by omega
  all_goals
    cases d with
    | tekla => exact absurd rfl hd
    | _ =>
      rw [← Option.some.inj hstep]
      exact ⟨_, rfl⟩

/-- What the user says is recorded in its order. -/
theorem Heard.told (hd : d ≠ .tekla) (h : Heard cfg me w sayings) (hlength : texts.length + sayings.length ≤ 4)
    (hw : w.Has me fun u => u.jiraTask = d.told texts) :
    (w.lived cfg (sayings.flatMap Saying.deeds)).Has me fun u =>
      u.jiraTask = d.told (texts ++ sayings.map fun saying => saying.message.text) := by
  induction sayings generalizing w texts with
  | nil =>
    rw [List.map_nil, List.append_nil]
    exact hw
  | cons saying sayings ih =>
    obtain ⟨rfl, hsame, hawake, hdispatcher, hprompt, hrest⟩ := h
    rw [List.length_cons] at hlength
    have hshort : texts.length < 4 := by omega
    obtain ⟨question, hq⟩ := Dialog.told_asks hd hshort saying.message.text
    have hanswered : (w.lived cfg saying.deeds).Has saying.message.from_.id fun u =>
        u.jiraTask = d.told (texts ++ [saying.message.text]) := by
      rw [Saying.deeds, World.lived_concat, Dialog.told_concat, NewTask.answer, hq]
      exact after_update (message_answers hdispatcher hprompt hawake hq (hsame.has hw))
    rw [List.flatMap_cons, World.lived_append, List.map_cons, List.append_cons]
    refine ih hrest ?_ hanswered
    rw [List.length_append, List.length_singleton]
    omega

theorem Heard.next {env : UpdateEnv} {m : Message} (hm : m.from_.id = me) (hawake : ¬w.Expires cfg env.now me)
    (hdispatcher : env.dispatcher.Answers) (hprompt : env.smallTalk.prompt.Normal)
    (h : Heard cfg me (w.lived cfg [.update env (.message m)]) sayings) : Heard cfg me w (⟨[], env, m⟩ :: sayings) :=
  ⟨hm, .refl me w, hawake, hdispatcher, hprompt, h⟩

end

end Chanserv
