import Chanserv.Bot.Isolation
import Chanserv.Bot.Verdicts
import Chanserv.Program.Traces

/-! Key requests over all lives of the bot.

Sessions, and the requests in them, are lost when the process ends; the table of
keys is not. Other programs mark keys as used. Whatever happens in between, a
request is answered once at most, and a user has one open key at most. -/
namespace Chanserv
open Text Program

namespace Handled

/-- The state after an update. -/
def after (cfg : Config) (h : Handled) : World := final (handleUpdate cfg h.env h.x) h.before

/-- The user answers the question for the reason. -/
def GivesReason (cfg : Config) (id : Int) (h : Handled) : Prop :=
  h.x.fromId = id ∧ (heard cfg h.env h.before h.x).map Prod.fst = some revitMasterKeyReasonStep1

instance (cfg : Config) (id : Int) (h : Handled) : Decidable (h.GivesReason cfg id) :=
  inferInstanceAs (Decidable (_ ∧ _))

/-- The decisions that reach the user. -/
def told (cfg : Config) (id : Int) (h : Handled) : List Text :=
  match h.x with
  | .callback q =>
    if (isApprove q.data ∨ isReject q.data) ∧ h.env.callback.key.decision.Normal then
      ((h.after cfg).sh.verdicts.drop h.before.sh.verdicts.length).filterMap fun v =>
        if v.1 = id then some v.2 else none
    else []
  | _ => []

end Handled

/-- Rows in which other programs marked keys as used. -/
def activated (used : MasterKeyRow → Bool) (rows : List MasterKeyRow) : List MasterKeyRow :=
  rows.map fun row => if used row then {row with isActivated := true} else row

/-- What the bot does, over all its lives, and what happens beside it. -/
inductive Life.Step (cfg : Config) : World → List Handled → World → Prop
  | update {w} (env : UpdateEnv) (x : Update) (h : Alive (failure (handleUpdate cfg env x) w)) :
    Step cfg w [⟨env, x, w⟩] (final (handleUpdate cfg env x) w)
  /-- The process ends in an update, and is started again. -/
  | ended {w} (env : UpdateEnv) (x : Update) {sh : Shared} (h : ¬Alive (failure (handleUpdate cfg env x) w))
    (hkeys : sh.keys = (final (handleUpdate cfg env x) w).sh.keys) : Step cfg w [⟨env, x, w⟩] {sh}
  | restarted {w : World} {sh : Shared} (hkeys : sh.keys = w.sh.keys) : Step cfg w [] {sh}
  | task {w} (env : TaskEnv) (task : Task) (h : failure (serviceBot (runTask cfg env task)) w = none) :
    Step cfg w [] (final (serviceBot (runTask cfg env task)) w)
  | queued {w} (tasks : List Task) : Step cfg w [] {w with mMainTasks := tasks}
  | tables {w : World} (db : Db) (used : MasterKeyRow → Bool) (h : db.masterKeys = activated used w.sh.keys) :
    Step cfg w [] {w with sh := {w.sh with db}}

/-- An update that is followed by others. -/
theorem Life.handled {cfg : Config} {s₀ w : World} {hist : List Handled} (hr : Runs (Life.Step cfg) s₀ hist w)
    (h : Handled) (hb : h.before = w) (hok : failure (handleUpdate cfg h.env h.x) h.before = none) :
    Runs (Life.Step cfg) s₀ (hist ++ [h]) (h.after cfg) := by
  subst hb
  refine hr.step (.update h.env h.x fun stop hstop => ?_)
  rw [hok] at hstop
  cases hstop

/-- A run that is computed is part of a life. -/
theorem Life.played {cfg : Config} {s₀ : World} {updates : List (UpdateEnv × Update)} {hist : List Handled} {w : World}
    (hr : Runs (Life.Step cfg) s₀ hist w) (h : survives cfg updates w) :
    Runs (Life.Step cfg) s₀ (hist ++ (played cfg updates w).1) (played cfg updates w).2 :=
  played_induct (P := Runs (Life.Step cfg) s₀) (fun _ _ env x hr halive => hr.step (.update env x halive)) hr h

/-- No user has two keys that are open. -/
def OneOpen (rows : List MasterKeyRow) : Prop :=
  rows.Pairwise fun a b => ¬(a.tgId = b.tgId ∧ a.isActivated = false ∧ b.isActivated = false)

theorem OneOpen.issues {id : Int} {rows rows' : List MasterKeyRow} (h : OneOpen rows) (hi : Issues id rows rows') :
    OneOpen rows' := by
  rcases hi with rfl | ⟨hused, row, hrow, rfl⟩
  · exact h
  · refine List.pairwise_append.mpr ⟨h, List.pairwise_singleton _ _, fun a ha b hb => ?_⟩
    obtain rfl := List.mem_singleton.mp hb
    rintro ⟨hsame, hopen, -⟩
    rw [hused a ha (hsame.trans hrow)] at hopen
    cases hopen

theorem OneOpen.activated {rows : List MasterKeyRow} (h : OneOpen rows) (used : MasterKeyRow → Bool) :
    OneOpen (activated used rows) := by
  have hid (row : MasterKeyRow) : (if used row then {row with isActivated := true} else row).tgId = row.tgId := by
    split <;> rfl
  have hopen (row : MasterKeyRow) (ho : (if used row then {row with isActivated := true} else row).isActivated = false) :
      row.isActivated = false := by
    split at ho
    · cases ho
    · exact ho
  refine List.pairwise_map.mpr (h.imp ?_)
  rintro a b hab ⟨hsame, ha, hb⟩
  rw [hid, hid] at hsame
  exact hab ⟨hsame, hopen a ha, hopen b hb⟩

/-! ### The reason of a request -/

section
variable {cfg : Config} {env : UpdateEnv} {x : Update} {w w' : World} {r : Option Stop} {id : Int}

/-- The other questions ask for no reason. -/
theorem question_reason {stat : Nat} {text : Text} {question : Question} (h : questionAt stat text = some question)
    (hstat : stat ≠ revitMasterKeyReasonStep1) (answer : Text) (t : NewTask) :
    (question.record answer t).keyReason = t.keyReason := by
  unfold questionAt at h
  split at h
  case h_1 => exact absurd rfl hstat
  case h_10 =>
    split at h
    · cases h
    · cases h
      rfl
  case h_11 => cases h
  all_goals
    cases h
    rfl

/-- No update but the answer to the question puts a reason into the session of who sent it. -/
theorem Moved.reason {may : RequiredRole → Prop} {opens : Option Dialog} {menu : Prop} {t t' : NewTask}
    {ns : List Effect} (h : Moved may opens menu t x r ns t') (halive : Alive r)
    (hno : ∀ m, x = .message m → t.stat ≠ revitMasterKeyReasonStep1) :
    t'.keyReason = t.keyReason ∨ t'.keyReason = [] := by
  cases h with
  | kept | halted | named | photographed | commanded | serviceOpened | photosDone | teklaMenu => exact .inl rfl
  | cleared | keyAsked => exact .inr rfl
  | @halfOpened _ _ d _ _ => cases d <;> exact .inr rfl
  | @opened _ _ d _ =>
    cases d with
    | task | family => exact .inr rfl
    | tekla => exact .inl rfl
  | @answered m _ question _ hquestion _ =>
    exact .inl (question_reason hquestion (hno m rfl) _ _)
  | filed _ hdone =>
    rcases hdone with rfl | ⟨⟨stop, rfl, hfatal⟩, -⟩
    · exact .inr rfl
    · rw [halive stop rfl] at hfatal
      cases hfatal
  | served _ _ ht =>
    rcases ht with rfl | rfl
    · exact .inl rfl
    · exact .inr rfl

/-- A request is where it was, or gone, unless the user gives a reason. -/
theorem Handles.reason (h : Handles cfg env x w r w') (halive : Alive r)
    (hno : ¬(⟨env, x, w⟩ : Handled).GivesReason cfg id) : w'.reason id = w.reason id ∨ w'.reason id = [] := by
  have hsession {u u' : UserDispatcher} (hs : w.session id = some u) (hs' : w'.session id = some u')
      (hu : u'.jiraTask.keyReason = u.jiraTask.keyReason ∨ u'.jiraTask.keyReason = []) :
      w'.reason id = w.reason id ∨ w'.reason id = [] := by
    rw [World.reason_of_session hs, World.reason_of_session hs']
    exact hu
  have hsame (hs : w'.session id = w.session id) : w'.reason id = w.reason id ∨ w'.reason id = [] := by
    rw [World.reason, World.reason, hs]
    exact .inl rfl
  by_cases hid : id = x.fromId
  · subst hid
    cases h.own with
    | idle _ _ _ _ hs =>
      rcases hs with hs | ⟨u, u', hs, hs', hu⟩
      · exact hsame hs
      · exact hsession hs hs' hu.request
    | @moved u u' ks ns hu hs' hheard _ _ _ hmoved _ =>
      have hstat : ∀ m, x = .message m → u.jiraTask.stat ≠ revitMasterKeyReasonStep1 := by
        intro m hm hstat
        refine hno ⟨rfl, ?_⟩
        rw [hheard m hm, Option.map_some, hstat]
      rw [World.reason_of_session hs']
      cases hu with
      | found hs hu =>
        rw [World.reason_of_session hs]
        rcases hmoved.reason halive hstat with hkept | hgone
        · rw [hkept]
          exact hu.request
        · exact .inr hgone
      | new htask _ =>
        rcases hmoved.reason halive hstat with hkept | hgone
        · rw [hkept, htask]
          exact .inr rfl
        · exact .inr hgone
  · cases h.others id hid with
    | kept hs => exact hsame hs
    | decided _ _ _ _ hs hs' hu => exact hsession hs hs' hu.request
    | evicted _ hgone =>
      obtain ⟨-, -, -, hs'⟩ := hgone
      rw [World.reason, hs']
      exact .inr rfl

end

section
variable {cfg : Config} {h : Handled} {id : Int}

/-- A decision that reaches the user is about a request of his; if the process goes on,
the request is closed. An approval has a key of his that is open. -/
theorem Handled.told_cases (cfg : Config) (id : Int) (hw : h.before.Owned) :
    h.told cfg id = [] ∨ ∃ text, h.told cfg id = [text] ∧ h.before.reason id ≠ [] ∧
      Rightly id (h.after cfg).sh.keys text ∧
      (Alive (failure (handleUpdate cfg h.env h.x) h.before) → (h.after cfg).reason id = []) := by
  obtain ⟨env, x, w⟩ := h
  cases x with
  | command | message => exact .inl rfl
  | callback q =>
    by_cases hclick : (isApprove q.data ∨ isReject q.data) ∧ env.callback.key.decision.Normal
    · have htold : (⟨env, .callback q, w⟩ : Handled).told cfg id = _ := if_pos hclick
      obtain ⟨requester, hruled⟩ := keyClick_ruled cfg env hclick.1 hw
      rcases hruled.verdict with hnone | ⟨text, hone, hrightly, hreason, hclosed⟩
      · refine .inl (htold.trans ?_)
        rw [Handled.after, hnone, List.drop_length]
        rfl
      · have hsingle := htold
        rw [Handled.after, hone, List.drop_left] at hsingle
        by_cases hid : requester = id
        · subst hid
          refine .inr ⟨text, hsingle.trans ?_, hreason, hrightly, fun halive => ?_⟩
          · rw [List.filterMap_cons, if_pos rfl]
            rfl
          · exact (hclosed hclick.2).resolve_right fun hdead => hdead halive
        · refine .inl (hsingle.trans ?_)
          rw [List.filterMap_cons, if_neg hid]
          rfl
    · exact .inl (if_neg hclick)

/-- Only the click of a decision touches the table, and it leaves sessions their users'. -/
theorem Handled.after_owned (hw : h.before.Owned) :
    (h.after cfg).Owned ∧ (OneOpen h.before.sh.keys → OneOpen (h.after cfg).sh.keys) := by
  obtain ⟨env, x, w⟩ := h
  by_cases hclick : ∃ q, x = .callback q ∧ (isApprove q.data ∨ isReject q.data)
  · obtain ⟨q, rfl, hkey⟩ := hclick
    obtain ⟨requester, hruled⟩ := keyClick_ruled cfg env hkey hw
    exact ⟨hruled.owned, fun hone => hone.issues hruled.keys⟩
  · have hsame : SameKeys w (final (handleUpdate cfg env x) w) :=
      handleUpdate_sameKeys fun q hq hkey => hclick ⟨q, hq, hkey⟩
    refine ⟨hsame.1 hw, fun hone => ?_⟩
    rw [Handled.after, hsame.2]
    exact hone

/-- What is left to say to a user: one decision while there is a request. -/
def World.undecided (id : Int) (w : World) : Nat := if w.reason id = [] then 0 else 1

theorem World.undecided_start (sh : Shared) : World.undecided id {sh} = 0 := if_pos rfl

theorem World.undecided_le {w w' : World} (h : w'.reason id = w.reason id ∨ w'.reason id = []) :
    w'.undecided id ≤ w.undecided id := by
  unfold World.undecided
  rcases h with hsame | hgone
  · rw [hsame]
  · rw [if_pos hgone]
    exact Nat.zero_le _

/-- A decision is paid for by the request it closes. -/
theorem Handled.told_paid (hw : h.before.Owned) (hno : ¬h.GivesReason cfg id)
    (halive : Alive (failure (handleUpdate cfg h.env h.x) h.before)) :
    (h.told cfg id).length + (h.after cfg).undecided id ≤ h.before.undecided id := by
  rcases h.told_cases cfg id hw with hnone | ⟨text, hone, hreason, -, hclosed⟩
  · rw [hnone, List.length_nil, Nat.zero_add]
    exact World.undecided_le ((handleUpdate_handles cfg h.env h.x h.before).reason halive hno)
  · rw [hone, List.length_singleton, World.undecided, if_pos (hclosed halive), World.undecided, if_neg hreason]

theorem Handled.told_paid_last (cfg : Config) (id : Int) (hw : h.before.Owned) :
    (h.told cfg id).length ≤ h.before.undecided id := by
  rcases h.told_cases cfg id hw with hnone | ⟨text, hone, hreason, -, -⟩
  · rw [hnone]
    exact Nat.zero_le _
  · rw [hone, List.length_singleton, World.undecided, if_neg hreason]

end

/-! ### All lives -/

section
variable {cfg : Config} {w w' : World} {es : List Handled} {id : Int}

instance (issueKey : Text) (ienv : TaskInfoEnv) : Frames Shared.keys (getTaskInfo cfg issueKey ienv) := by
  unfold getTaskInfo
  refine .bind inferInstance fun reply => ?_
  cases reply with
  | noHandle | failed => exact inferInstanceAs (Frames Shared.keys (pure _))
  | answered status body =>
    cases body with
    | none =>
      dsimp only
      infer_instance
    | some v =>
      have hnotified (notified : List (Text × Text)) :
          Frames Shared.keys (modify fun s => {s with mNotifiedAssignee := notified} : ServiceM Unit) :=
        ⟨.writes fun _ => rfl⟩
      have hrest (s : Shared) : Frames Shared.keys (do
          modify fun s' : Shared => {s' with mNotifiedAssignee :=
            (rememberAssignee s.mNotifiedAssignee issueKey (assigneeEmail v)).2}
          guarded (rememberAssignee s.mNotifiedAssignee issueKey (assigneeEmail v)).1 <| catching (do
            let _ ← call .selectRows ienv.selectContractor
            call (.sendEmail (assigneeEmail v) (cfg.jiraBrowseUrl ++ issueKey)) ienv.sendEmail) fun _ => pure ()
          pure (0 : Int)) := inferInstance
      have hread : Frames Shared.keys (get : ServiceM Shared) := inferInstance
      have hskip : Frames Shared.keys (pure (2 : Int) : ServiceM Int) := inferInstance
      exact ⟨.ite hskip.keeps (hread.bind hrest).keeps⟩

instance (path : Text) (r : Answer (Option Int)) : Frames Shared.keys (getMemSize path r) := by
  unfold getMemSize
  refine .bind inferInstance fun size => ?_
  cases size <;> infer_instance

instance (env : TaskEnv) (task : Task) : Frames Shared.keys (runTask cfg env task) := by
  cases task with
  | jiraWebhook requestUrl =>
    dsimp only [runTask]
    unfold jiraWebhooksHandler
    infer_instance
  | qtBgWorker =>
    dsimp only [runTask]
    unfold qtBgWorker
    infer_instance

/-- Between updates requests stay where they are, and keys are used or stay. -/
structure Between (w w' : World) : Prop where
  owned : w.Owned → w'.Owned
  reason : ∀ id, w'.reason id = w.reason id ∨ w'.reason id = []
  keys : OneOpen w.sh.keys → OneOpen w'.sh.keys

theorem Life.Step.cases (h : Life.Step cfg w es w') :
    (∃ env x, es = [⟨env, x, w⟩] ∧ Alive (failure (handleUpdate cfg env x) w) ∧
      w' = final (handleUpdate cfg env x) w) ∨
    (∃ env x sh, es = [⟨env, x, w⟩] ∧ w' = {sh} ∧ sh.keys = (final (handleUpdate cfg env x) w).sh.keys) ∨
    es = [] ∧ Between w w' := by
  have hempty (sh : Shared) : World.Owned {sh} := fun _ _ hu => by cases hu
  cases h with
  | update env x h => exact .inl ⟨env, x, rfl, h, rfl⟩
  | ended env x h hkeys => exact .inr (.inl ⟨env, x, _, rfl, rfl, hkeys⟩)
  | restarted hkeys => exact .inr (.inr ⟨rfl, fun _ => hempty _, fun _ => .inr rfl, fun hone => hkeys ▸ hone⟩)
  | task env task h =>
    have hapart : Apart w (final (serviceBot (runTask cfg env task)) w) := .of_silent .runTask w
    have hstays : Stays SameKeys (serviceBot (runTask cfg env task)) := inferInstance
    have hsame : SameKeys w (final (serviceBot (runTask cfg env task)) w) :=
      of_wp (P := fun _ => SameKeys w) (hstays.within w)
    refine .inr (.inr ⟨rfl, hsame.1, fun id => .inl ?_, fun hone => hsame.2 ▸ hone⟩)
    rw [World.reason, World.reason, hapart.session]
  | queued tasks => exact .inr (.inr ⟨rfl, fun hw => hw, fun _ => .inl rfl, fun hone => hone⟩)
  | tables db used h =>
    refine .inr (.inr ⟨rfl, fun hw => hw, fun _ => .inl rfl, fun hone => ?_⟩)
    have hkeys : db.masterKeys = activated used w.sh.keys := h
    exact (congrArg OneOpen hkeys).mpr (hone.activated used)

theorem Life.Step.one (h : Life.Step cfg w es w') : es.length ≤ 1 := by
  rcases h.cases with ⟨_, _, rfl, -⟩ | ⟨_, _, _, rfl, -⟩ | ⟨rfl, -⟩
  · exact Nat.le_refl 1
  · exact Nat.le_refl 1
  · exact Nat.zero_le 1

theorem Life.Step.owned (h : Life.Step cfg w es w') (hw : w.Owned) : w'.Owned := by
  rcases h.cases with ⟨env, x, -, -, rfl⟩ | ⟨env, x, sh, -, rfl, -⟩ | ⟨-, hrests⟩
  · exact (Handled.after_owned (h := ⟨env, x, w⟩) hw).1
  · exact fun _ _ hu => by cases hu
  · exact hrests.owned hw

theorem Life.Step.oneOpen (h : Life.Step cfg w es w') (hw : w.Owned) (hone : OneOpen w.sh.keys) :
    OneOpen w'.sh.keys := by
  rcases h.cases with ⟨env, x, -, -, rfl⟩ | ⟨env, x, sh, -, rfl, hkeys⟩ | ⟨-, hrests⟩
  · exact (Handled.after_owned (h := ⟨env, x, w⟩) hw).2 hone
  · rw [hkeys]
    exact (Handled.after_owned (h := ⟨env, x, w⟩) hw).2 hone
  · exact hrests.keys hone

theorem Life.Step.rightly (h : Life.Step cfg w es w') (hw : w.Owned) :
    ∀ e ∈ es, ∀ text ∈ e.told cfg id, Rightly id (e.after cfg).sh.keys text := by
  have hrightly (e : Handled) (he : e.before = w) :
      ∀ text ∈ e.told cfg id, Rightly id (e.after cfg).sh.keys text := by
    intro text htext
    rcases e.told_cases cfg id (he ▸ hw) with hnone | ⟨told, hone, -, hrightly, -⟩
    · rw [hnone] at htext
      cases htext
    · rw [hone, List.mem_singleton] at htext
      exact htext ▸ hrightly
  rcases h.cases with ⟨env, x, rfl, -⟩ | ⟨env, x, _, rfl, -⟩ | ⟨rfl, -⟩
  · exact fun e he => hrightly e (List.mem_singleton.mp he ▸ rfl)
  · exact fun e he => hrightly e (List.mem_singleton.mp he ▸ rfl)
  · exact fun e he => absurd he List.not_mem_nil

/-- A request is where it was, or gone, unless the user gives a reason. -/
theorem Life.Step.reason (h : Life.Step cfg w es w') (hno : ∀ e ∈ es, ¬e.GivesReason cfg id) :
    w'.reason id = w.reason id ∨ w'.reason id = [] := by
  rcases h.cases with ⟨env, x, rfl, halive, rfl⟩ | ⟨env, x, sh, rfl, rfl, -⟩ | ⟨rfl, hrests⟩
  · exact (handleUpdate_handles cfg env x w).reason halive (hno _ (List.mem_singleton_self _))
  · exact .inr rfl
  · exact hrests.reason id

theorem Life.reason {s₀ : World} (h : Runs (Life.Step cfg) s₀ es w) (hno : ∀ e ∈ es, ¬e.GivesReason cfg id) :
    w.reason id = s₀.reason id ∨ w.reason id = [] := by
  refine h.invariant (I := fun es w => (∀ e ∈ es, ¬e.GivesReason cfg id) →
    w.reason id = s₀.reason id ∨ w.reason id = []) (fun _ => .inl rfl) ?_ hno
  intro es w es' w' hw hs hno
  rcases hs.reason fun e he => hno e (List.mem_append_right _ he) with hsame | hgone
  · rw [hsame]
    exact hw fun e he => hno e (List.mem_append_left _ he)
  · exact .inr hgone

theorem Life.Step.paid (h : Life.Step cfg w es w') (hw : w.Owned) (hno : ∀ e ∈ es, ¬e.GivesReason cfg id) :
    (es.flatMap (Handled.told cfg id)).length + w'.undecided id ≤ w.undecided id := by
  rcases h.cases with ⟨env, x, rfl, halive, rfl⟩ | ⟨env, x, sh, rfl, rfl, -⟩ | ⟨rfl, hrests⟩
  · have hpaid := Handled.told_paid (h := ⟨env, x, w⟩) hw (hno _ (List.mem_singleton_self _)) halive
    rw [List.flatMap_singleton]
    exact hpaid
  · have hpaid := Handled.told_paid_last (h := ⟨env, x, w⟩) cfg id hw
    rw [List.flatMap_singleton, World.undecided_start]
    exact hpaid
  · rw [List.flatMap_nil, List.length_nil, Nat.zero_add]
    exact World.undecided_le (hrests.reason id)

/-- Over all lives of the bot: between two reasons a user gives he is told one decision at most,
he has one open key at most, and an approval has a key of his that is open. -/
theorem one_decision_one_key {sh : Shared} {hist : List Handled} (hrun : Runs (Life.Step cfg) {sh} hist w)
    (hkeys : OneOpen sh.keys) :
    (∀ id pre mid post, hist = pre ++ mid ++ post → (∀ h ∈ mid, ¬h.GivesReason cfg id) →
      (mid.flatMap (Handled.told cfg id)).length ≤ 1) ∧
    OneOpen w.sh.keys ∧ ∀ h ∈ hist, ∀ id, ∀ text ∈ h.told cfg id, Rightly id (h.after cfg).sh.keys text := by
  have howned {es : List Handled} {w : World} (hrun : Runs (Life.Step cfg) {sh} es w) : w.Owned :=
    hrun.invariant (I := fun _ w => w.Owned) (fun _ _ hu => by cases hu) fun _ _ _ _ hw hs => hs.owned hw
  refine ⟨fun id pre mid post hhist hno => ?_, ?_⟩
  · subst hhist
    obtain ⟨w₂, hrun₂, -⟩ := hrun.split fun _ _ _ => Life.Step.one
    obtain ⟨w₁, hrun₁, hmid⟩ := hrun₂.split fun _ _ _ => Life.Step.one
    have hpaid := (hmid.potential hno (howned hrun₁) fun _ _ _ hw hno hs => ⟨hs.owned hw, hs.paid hw hno⟩).2
    have hmost : w₁.undecided id ≤ 1 := by
      unfold World.undecided
      split <;> omega
    omega
  · refine (hrun.invariant (I := fun es w => w.Owned ∧ OneOpen w.sh.keys ∧
      ∀ h ∈ es, ∀ id, ∀ text ∈ h.told cfg id, Rightly id (h.after cfg).sh.keys text) ?_ ?_).2
    · exact ⟨fun _ _ hu => (by cases hu), hkeys, fun _ he => absurd he List.not_mem_nil⟩
    · rintro es w es' w' ⟨hw, hone, hrightly⟩ hs
      refine ⟨hs.owned hw, hs.oneOpen hw hone, fun h hh id => ?_⟩
      rcases List.mem_append.mp hh with hh | hh
      · exact hrightly h hh id
      · exact hs.rightly hw h hh

/-- A second click on the button finds no request. -/
theorem one_decision_one_key_approval :
    let hist := (played staff7 (keyUpdates ++ [approval, approval]) {}).1
    let w := (played staff7 (keyUpdates ++ [approval, approval]) {}).2
    hist.flatMap (Handled.told staff7 6) = [approvalText (of "k1")] ∧
    (∀ id pre mid post, hist = pre ++ mid ++ post → (∀ h ∈ mid, ¬h.GivesReason staff7 id) →
      (mid.flatMap (Handled.told staff7 id)).length ≤ 1) ∧
    OneOpen w.sh.keys ∧ ∀ h ∈ hist, ∀ id, ∀ text ∈ h.told staff7 id, Rightly id (h.after staff7).sh.keys text := by
  have halive : survives staff7 (keyUpdates ++ [approval, approval]) {} = true := by decide +kernel
  have hrun : Runs (Life.Step staff7) {} ([] ++ (played staff7 (keyUpdates ++ [approval, approval]) {}).1) _ :=
    Life.played .start halive
  exact ⟨by decide +kernel, one_decision_one_key hrun .nil⟩

end

end Chanserv
