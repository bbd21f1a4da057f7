import Chanserv.Bot.AtTheDesk
import Chanserv.Bot.KeyClicks
import Chanserv.Bot.KeyRequests

/-! Key requests that are announced to staff, and the clicks under their notices.

The button under a notice names the user, not the request. A decision is about the
request the notice shows when the user has given no reason since; about another
one, perhaps not announced yet, when he has. -/
namespace Chanserv
open Text Program

/-! ### Notices -/

def noticeText (name reason : Text) : Text :=
  of "Запрос одобрения ключа от " ++ name ++ of " Причина: " ++ reason

/-- A message with an approve and a reject button: where to, its text, and the two data. -/
def Effect.notice : Effect → Option (Int × Text × Text × Text)
  | .sendMessage (.user chat) text (.rejectOrApprove approve reject) _ => some (chat, text, approve, reject)
  | _ => none

def Shared.notices (s : Shared) : List (Int × Text × Text × Text) := s.trace.filterMap Effect.notice

theorem Shared.notices_log (s : Shared) (e : Effect) : (s.log e).notices = s.notices ++ e.notice.toList :=
  Shared.filterMap_log Effect.notice s e

section
variable {α : Type} {cfg : Config} {s : Shared}

theorem frames_notices {e : Effect} (he : e.notice = none) : Frames Shared.notices (log e) :=
  ⟨.writes fun s => by rw [Shared.notices_log, he, Option.toList_none, List.append_nil]⟩

/-- All of staff is told unless the process ends on the way, and somebody in any case. -/
theorem besideNotice_notices {text approve reject : Text} {ahead : Nat → Nat} {r : Nat → Sending}
    {ms : List (ServiceM Unit)} (hms : ∀ m ∈ ms, Keeps Shared.notices (fun stop => stop.fatal = false) m) :
    wp (besideThread ahead (noticesToStaff cfg text (.rejectOrApprove approve reject) r) ms)
      (fun _ s' => s'.notices = s.notices ++ cfg.vStaff.map fun employee => (employee, text, approve, reject))
      (fun stop s' => ∃ told rest, cfg.vStaff = told ++ rest ∧ (told = [] → rest = []) ∧
        (stop.fatal = false → rest = []) ∧
        s'.notices = s.notices ++ told.map fun employee => (employee, text, approve, reject)) s := by
  let Told (i : Nat) (s' : Shared) : Prop :=
    s'.notices = s.notices ++ (cfg.vStaff.take i).map fun employee => (employee, text, approve, reject)
  have hround (i : Nat) (employee : Int) (hi : cfg.vStaff[i]? = some employee) (s' : Shared) (hs : Told i s') :
      Told (i + 1) (s'.log (.sendMessage (.user employee) text (.rejectOrApprove approve reject))) := by
    show Shared.notices _ = _
    rw [Shared.notices_log, hs, List.take_add_one, hi, List.map_append, ← List.append_assoc]
    rfl
  have hall {s' : Shared} (h : Told cfg.vStaff.length s') :
      s'.notices = s.notices ++ cfg.vStaff.map fun employee => (employee, text, approve, reject) := by
    rw [h, List.take_length]
  have hfirst (i : Nat) (hnone : cfg.vStaff.take (i + 1) = []) : cfg.vStaff.drop (i + 1) = [] := by
    rcases List.take_eq_nil_iff.mp hnone with hi | hstaff
    · cases hi
    · rw [hstaff, List.drop_nil]
  have hdead {stop : Stop} {rest : List Int} (hfatal : stop.fatal = true) (halive : stop.fatal = false) : rest = [] := by
    rw [hfatal] at halive
    cases halive
  have hstart : Told 0 s := by
    show s.notices = _
    rw [List.take_zero, List.map_nil, List.append_nil]
  refine wp_mono (wp_besideNotice (I := fun i _ => Told i) (J := Told) (fun i employee hi _ => hround i employee hi)
    (fun k m hm i s' hs => ?_) hround hstart) (fun _ s' h => hall h.2) ?_
  · refine wp_mono (hms m (List.mem_of_getElem? hm) s') (fun _ _ h => h.trans hs) fun _ _ h => ⟨h.1, h.2.trans hs⟩
  · rintro stop s' (⟨-, h⟩ | ⟨hfatal, -, i, h⟩ | ⟨hfatal, i, -, h⟩)
    · exact ⟨cfg.vStaff, [], (List.append_nil _).symm, fun _ => rfl, fun _ => rfl, hall h⟩
    · exact ⟨_, _, (List.take_append_drop (i + 1) cfg.vStaff).symm, hfirst i, hdead hfatal, h⟩
    · exact ⟨_, _, (List.take_append_drop (i + 1) cfg.vStaff).symm, hfirst i, hdead hfatal, h⟩

instance (denv : DispatcherEnv) (user : TgUser) : Frames Shared.notices (addConsumerToDb denv user) :=
  .addsConsumer (frames_notices rfl) (frames_notices rfl) (fun _ _ => rfl) denv

instance (r : Answer Bool) : Frames Shared.notices (reloadConsumersList r) :=
  .reloadsConsumers (frames_notices rfl) (fun _ _ => rfl) r

end

/-! ### The session a message finds -/

/-- The task of a user's session; without a session, that of a new one. -/
def World.task (w : World) (id : Int) : NewTask := (w.session id).elim {} fun u => u.jiraTask

theorem World.reason_eq (w : World) (id : Int) : w.reason id = (w.task id).keyReason := by
  rw [World.reason, World.task]
  cases w.session id <;> rfl

section
variable {cfg : Config} {denv : DispatcherEnv} {now : Int} {m : Message} {w : World}

/-- The task a message finds: that of the session, unless a cleanup takes it. -/
def World.arriving (w : World) (cfg : Config) (now id : Int) : NewTask :=
  if w.Expires cfg now id then {} else w.task id

theorem World.arrival_task (w : World) (cfg : Config) (now : Int) (m : Message) :
    (w.arrival cfg now m).jiraTask = w.arriving cfg now m.from_.id := by
  unfold World.arrival World.arriving World.task
  split
  · rfl
  · cases w.session m.from_.id <;> rfl

theorem sessionDispatcher_finds :
    wp (sessionDispatcher cfg denv now m)
      (fun _ w' => w'.sh.notices = w.sh.notices ∧
        ∃ u, w'.At m.from_.id ⟨u, w'.sh⟩ ∧ u.jiraTask = w.arriving cfg now m.from_.id)
      (fun _ w' => w'.mSessions = w.mSessions) w := by
  refine wp_mono (sessionDispatcher_arrives Shared.notices) ?_ fun _ _ h => h.1
  rintro _ w' ⟨hat, hnotices⟩
  exact ⟨hnotices, _, hat, w.arrival_task cfg now m⟩

theorem facing_eq {env : UpdateEnv} : facing cfg env w m =
    if failure (sessionDispatcher cfg env.dispatcher env.now m) w = none then some (w.arriving cfg env.now m.from_.id)
    else none := by
  have hfinds := @sessionDispatcher_finds cfg env.dispatcher env.now m w
  unfold wp at hfinds
  unfold facing Program.failure
  cases hrun : (sessionDispatcher cfg env.dispatcher env.now m).run w with
  | ok _ w' =>
    rw [hrun] at hfinds
    obtain ⟨-, u, hat, htask⟩ := hfinds
    dsimp only
    rw [hat.session, Option.map_some, htask, if_pos rfl]
  | error stop w' => rfl

/-- A message at a step of a dialog finds the session from before. -/
theorem heard_stat {env : UpdateEnv} {stat : Nat} (h : (heard cfg env w (.message m)).map Prod.fst = some stat)
    (hstat : stat ≠ 0) :
    failure (sessionDispatcher cfg env.dispatcher env.now m) w = none ∧
      w.arriving cfg env.now m.from_.id = w.task m.from_.id ∧ (w.task m.from_.id).stat = stat := by
  rw [heard, facing_eq] at h
  split at h
  case isFalse => cases h
  case isTrue hok =>
    rw [Option.map_some, Option.map_some, Option.some.injEq] at h
    have hkept : w.arriving cfg env.now m.from_.id = w.task m.from_.id := by
      unfold World.arriving at h ⊢
      split at h
      case isTrue => exact absurd h.symm hstat
      case isFalse hx => rw [if_neg hx]
    exact ⟨hok, hkept, hkept ▸ h⟩

end

/-! ### Announcements -/

/-- What these members of staff get about a request. -/
def noticesTo (told : List Int) (id : Int) (name reason : Text) : List (Int × Text × Text × Text) :=
  told.map fun employee => (employee, noticeText name reason, approveCallbackData id, rejectCallbackData id)

/-- What staff gets about a request. -/
def staffNotices (cfg : Config) (id : Int) (name reason : Text) : List (Int × Text × Text × Text) :=
  cfg.vStaff.map fun employee => (employee, noticeText name reason, approveCallbackData id, rejectCallbackData id)

section
variable {cfg : Config} {env : UpdateEnv} {m : Message} {c : Chat} {w : World} {id chat messageId : Int}

/-- All of staff is told unless the process ends on the way, and somebody in any case. -/
theorem masterKeyFirstname_notices :
    wp (masterKeyFirstname cfg env.smallTalk m)
      (fun _ d => d.sh.notices = c.sh.notices ++ staffNotices cfg m.from_.id (cleanDescription m.text) c.reason)
      (fun stop d => ∃ told rest, cfg.vStaff = told ++ rest ∧ (told = [] → rest = []) ∧ (stop.fatal = false → rest = []) ∧
        d.sh.notices = c.sh.notices ++ noticesTo told m.from_.id (cleanDescription m.text) c.reason) c := by
  have hprompt : ∀ t ∈ [do let _ ← call (.sendMessage (.user m.chat.id) (of "Ожидайте одобрения")) env.smallTalk.prompt],
      Keeps Shared.notices (fun stop => stop.fatal = false) t := by
    intro t ht s
    have hlog : (s.log (.sendMessage (.user m.chat.id) (of "Ожидайте одобрения"))).notices = s.notices := by
      rw [Shared.notices_log]
      exact List.append_nil _
    rw [List.mem_singleton.mp ht, wp_bind, wp_call]
    exact ⟨fun _ _ => hlog, fun _ _ => ⟨rfl, hlog⟩⟩
  simp only [masterKeyFirstname, wp_bind, wp_service, wp_modifyTask, wp_get]
  exact wp_mono (besideNotice_notices hprompt) (fun _ _ h => h) fun _ _ h => h

end

namespace Handled

/-- The notices an update sends. -/
def notices (cfg : Config) (h : Handled) : List (Int × Text × Text × Text) :=
  (h.after cfg).sh.notices.drop h.before.sh.notices.length

/-- The user gives his name, so staff is told; in one chat the notice is this message. -/
def Announces (cfg : Config) (id chat messageId : Int) (h : Handled) : Prop :=
  h.x.fromId = id ∧ (heard cfg h.env h.before h.x).map Prod.fst = some revitMasterKeyFirstnameStep2 ∧
    ∃ i sent, (chat, i) ∈ cfg.vStaff.zipIdx ∧ h.env.smallTalk.staff i = .returns sent ∧ sent.messageId = messageId

/-- This message tells staff the reason, over the two buttons of the user. -/
def Shows (cfg : Config) (id : Int) (reason : Text) (chat messageId : Int) (h : Handled) : Prop :=
  h.Announces cfg id chat messageId ∧
    ∃ name, (chat, noticeText name reason, approveCallbackData id, rejectCallbackData id) ∈ h.notices cfg

variable {cfg : Config} {id chat messageId : Int} {h : Handled}

theorem Announces.gives_none (ha : h.Announces cfg id chat messageId) : ¬h.GivesReason cfg id := by
  intro hg
  have hstep := ha.2.1.symm.trans hg.2
  rw [Option.some.injEq] at hstep
  exact absurd hstep (by decide)

/-- What is sent to staff when a user gives his name. -/
theorem notices_named {env : UpdateEnv} {m : Message} {w : World}
    (hheard : (heard cfg env w (.message m)).map Prod.fst = some revitMasterKeyFirstnameStep2) :
    ∃ told rest, cfg.vStaff = told ++ rest ∧ (told = [] → rest = []) ∧
      (Alive (failure (handleUpdate cfg env (.message m)) w) → rest = []) ∧
      notices cfg ⟨env, .message m, w⟩ =
        noticesTo told m.from_.id (cleanDescription m.text) (w.reason m.from_.id) := by
  obtain ⟨hok, hkept, hstat⟩ := heard_stat hheard (by decide)
  have hnotices : ∃ told rest, cfg.vStaff = told ++ rest ∧ (told = [] → rest = []) ∧
      (Alive (failure (handleUpdate cfg env (.message m)) w) → rest = []) ∧
      (final (handleUpdate cfg env (.message m)) w).sh.notices =
        w.sh.notices ++ noticesTo told m.from_.id (cleanDescription m.text) (w.reason m.from_.id) := by
    refine of_wp (P := fun r (w' : World) => ∃ told rest, cfg.vStaff = told ++ rest ∧ (told = [] → rest = []) ∧
      (Alive r → rest = []) ∧ w'.sh.notices =
        w.sh.notices ++ noticesTo told m.from_.id (cleanDescription m.text) (w.reason m.from_.id)) ?_
    rw [handleUpdate, wp_bind]
    refine wp_mono (wp_run sessionDispatcher_finds) ?_ ?_
    · rintro _ w₁ ⟨-, hsh, u, hat, htask⟩
      rw [hkept] at htask
      have hreason : u.jiraTask.keyReason = w.reason m.from_.id := by rw [htask, World.reason_eq]
      rw [handleSmallTalk]
      refine wp_ownSession hat _ fun w₂ h₂ _ => ?_
      have hrole : cfg.hasRole m.from_.id (roleForStep revitMasterKeyFirstnameStep2) := isAllowed_anyone _ _
      have hu : (Chat.touch env.now ⟨u, w₁.sh⟩).ud.jiraTask.stat = revitMasterKeyFirstnameStep2 := by
        rw [← hstat, ← htask]
        rfl
      have htalk := @masterKeyFirstname_notices cfg env m (Chat.touch env.now ⟨u, w₁.sh⟩)
      have hsame : (Chat.touch env.now ⟨u, w₁.sh⟩).reason = w.reason m.from_.id := hreason
      have hbefore : (Chat.touch env.now ⟨u, w₁.sh⟩).sh.notices = w.sh.notices := hsh
      rw [hsame, hbefore] at htalk
      refine wp_onSession h₂ ?_
      rw [smallTalk, wp_bind, wp_get, hu, if_pos hrole]
      refine wp_mono htalk (fun _ d hd w₃ h₃ _ => ?_) fun stop d hd w₃ h₃ _ => ?_
      · obtain ⟨-, -, -, hsh₃⟩ := h₃
        rw [hsh₃, hd]
        exact ⟨cfg.vStaff, [], (List.append_nil _).symm, fun _ => rfl, fun _ => rfl, rfl⟩
      · obtain ⟨-, -, -, hsh₃⟩ := h₃
        obtain ⟨told, rest, hstaff, htold, hall, hd⟩ := hd
        rw [hsh₃, hd]
        exact ⟨told, rest, hstaff, htold, fun halive => hall (halive stop rfl), rfl⟩
    · rintro stop w₁ ⟨hrun, -⟩
      unfold Program.failure at hok
      rw [hrun] at hok
      cases hok
  obtain ⟨told, rest, hstaff, htold, hall, hlog⟩ := hnotices
  refine ⟨told, rest, hstaff, htold, hall, ?_⟩
  rw [notices, after, hlog, List.drop_left]

/-- What staff is shown is the reason of the request. -/
theorem Announces.shows (ha : h.Announces cfg id chat messageId)
    (halive : Alive (failure (handleUpdate cfg h.env h.x) h.before)) :
    h.Shows cfg id (h.before.reason id) chat messageId := by
  refine ⟨ha, ?_⟩
  obtain ⟨env, x, w⟩ := h
  obtain ⟨hid, hheard, i, sent, hstaff, -, -⟩ := ha
  cases x with
  | command | callback => cases hheard
  | message m =>
    obtain ⟨told, rest, hall, -, hrest, hnotices⟩ := notices_named hheard
    rw [hrest halive, List.append_nil] at hall
    refine ⟨cleanDescription m.text, ?_⟩
    rw [hnotices, noticesTo, List.mem_map, ← hall]
    subst hid
    refine ⟨chat, ?_, rfl⟩
    exact List.fst_mem_of_mem_zipIdx hstaff

end Handled

/-! ### Decisions about the request that was shown -/

/-- A decision is about the request the notice with the button shows: its reason is the one
shown, and the user gave none since. -/
def Answers (cfg : Config) (pre : List Handled) (h : Handled) : Prop :=
  ∀ q, h.x = .callback q → isApprove q.data ∨ isReject q.data → ∀ approved id, .decideKey approved id ∈ h.effects cfg →
    ∃ old a since, pre = old ++ a :: since ∧ a.Shows cfg id (h.before.reason id) q.chat.id q.messageId ∧
      ∀ g ∈ since, ¬g.GivesReason cfg id

/-- While there is a request of the user, staff clicks only under notices sent since he gave a reason. -/
def Fresh (cfg : Config) (pre : List Handled) (h : Handled) : Prop :=
  ∀ q, h.x = .callback q → isApprove q.data ∨ isReject q.data → cfg.hasRole q.from_.id .staff →
    ∀ id, requesterId q.data = some id → id ≠ 0 → h.before.reason id ≠ [] →
      ∃ old a since, pre = old ++ a :: since ∧ a.Announces cfg id q.chat.id q.messageId ∧
        ∀ g ∈ since, ¬g.GivesReason cfg id

section
variable {cfg : Config} {sh : Shared} {hist : List Handled} {w : World}

/-- A step with an update is this update, or the process ends in it. -/
theorem Life.Step.update_cases {h : Handled} {w' : World} (hs : Life.Step cfg w [h] w') :
    h.before = w ∧ ((∀ id, w'.reason id = []) ∨ Alive (failure (handleUpdate cfg h.env h.x) h.before)) := by
  rcases hs.cases with ⟨env, x, hh, halive, rfl⟩ | ⟨env, x, sh, hh, rfl, -⟩ | ⟨hh, -⟩
  · obtain rfl := List.singleton_inj.mp hh
    exact ⟨rfl, .inr halive⟩
  · obtain rfl := List.singleton_inj.mp hh
    exact ⟨rfl, .inl fun _ => rfl⟩
  · cases hh

/-- What a notice showed is the request a decision finds, if no reason was given since. -/
theorem announced_reason {s : World} {old since : List Handled} {a : Handled} {id chat messageId : Int}
    (hrun : Runs (Life.Step cfg) {sh} (old ++ a :: since) s) (ha : a.Announces cfg id chat messageId)
    (hsince : ∀ g ∈ since, ¬g.GivesReason cfg id) (hreason : s.reason id ≠ []) :
    a.Shows cfg id (s.reason id) chat messageId := by
  obtain ⟨s₁, s₂, -, hstep, hafter⟩ := hrun.at_event fun _ _ _ => Life.Step.one
  obtain ⟨rfl, hend⟩ := hstep.update_cases
  have hkept : s.reason id = s₂.reason id := (Life.reason hafter hsince).resolve_right hreason
  have hopen : s₂.reason id ≠ [] := hkept ▸ hreason
  have halive := hend.resolve_left fun hgone => hopen (hgone id)
  have hsame : s₂.reason id = a.before.reason id := by
    refine (hstep.reason fun e he => ?_).resolve_right hopen
    rw [List.mem_singleton.mp he]
    exact ha.gives_none
  rw [hkept, hsame]
  exact ha.shows halive

/-- In every run, a click under an approve or a reject button decides about the request its notice
shows, and about no other, exactly when it does not come with another request in the session. -/
theorem answers_iff (hrun : Runs (Life.Step cfg) {sh} hist w) {pre post : List Handled} {h : Handled}
    (hhist : hist = pre ++ h :: post) : Answers cfg pre h ↔ Fresh cfg pre h := by
  subst hhist
  obtain ⟨s, s', hbefore, hstep, -⟩ := hrun.at_event fun _ _ _ => Life.Step.one
  obtain ⟨hs, -⟩ := hstep.update_cases
  obtain ⟨env, x, w⟩ := h
  dsimp only at hs
  subst hs
  constructor
  · intro hall q hq hkey hrole id hid h0 hreason
    dsimp only at hq
    subst hq
    have hdecides := (mem_keyClick_effects env hkey).mpr ⟨hrole, hid, h0, hreason, rfl⟩
    obtain ⟨old, a, since, hpre, hshows, hsince⟩ := hall q rfl hkey _ id hdecides
    exact ⟨old, a, since, hpre, hshows.1, hsince⟩
  · intro hfresh q hq hkey approved id hdecides
    dsimp only at hq
    subst hq
    obtain ⟨hrole, hid, h0, hreason, -⟩ := (mem_keyClick_effects env hkey).mp hdecides
    obtain ⟨old, a, since, hpre, hannounces, hsince⟩ := hfresh q rfl hkey hrole id hid h0 hreason
    subst hpre
    exact ⟨old, a, since, rfl, announced_reason hbefore hannounces hsince hreason, hsince⟩

/-- A decision right after the user gave a reason is about a request no notice has shown. -/
theorem unannounced_decision {pre : List Handled} {g h : Handled} {q : CallbackQuery} {approved : Bool} {id : Int}
    (hg : g.GivesReason cfg id) (hq : h.x = .callback q) (hkey : isApprove q.data ∨ isReject q.data)
    (hdecides : .decideKey approved id ∈ h.effects cfg) : ¬Answers cfg (pre ++ [g]) h := by
  intro hall
  obtain ⟨old, a, since, hpre, hshows, hsince⟩ := hall q hq hkey approved id hdecides
  rcases List.eq_nil_or_concat since with rfl | ⟨since, last, rfl⟩
  · obtain rfl := (List.append_singleton_inj.mp hpre).2
    exact hshows.1.gives_none hg
  · rw [List.concat_eq_append, ← List.cons_append, ← List.append_assoc] at hpre
    obtain rfl := (List.append_singleton_inj.mp hpre).2
    exact hsince g (by simp) hg

end

/-! ### A request, and another one -/

/-- The approval after the notice. -/
def approvedRequest : Handled := ⟨approval.1, approval.2, (played staff7 keyUpdates {}).2⟩

theorem answers_iff_approval :
    .decideKey true 6 ∈ approvedRequest.effects staff7 ∧
    (Answers staff7 (played staff7 keyUpdates {}).1 approvedRequest ↔
      Fresh staff7 (played staff7 keyUpdates {}).1 approvedRequest) := by
  have halive : survives staff7 keyUpdates {} = true := by decide +kernel
  have hrun : Runs (Life.Step staff7) {} ([] ++ (played staff7 keyUpdates {}).1) _ := Life.played .start halive
  rw [List.nil_append] at hrun
  have hrun' := Life.handled hrun approvedRequest (by simp only [approvedRequest]) (by decide +kernel)
  exact ⟨by decide +kernel, answers_iff hrun' rfl⟩

/-- Before the notice is answered user 6 asks for another key. -/
def askAgain : List (UpdateEnv × Update) :=
  keyUpdates ++ [startFrom 6, clickFrom 6 "req_master_key"].map fun x => (UpdateEnv.calm 0, x)

def secondReason : Handled := ⟨.calm 0, textFrom 6 "a door", (played staff7 askAgain {}).2⟩

/-- The click is under the notice about the first request. -/
def staleApproval : Handled := ⟨approval.1, approval.2, secondReason.after staff7⟩

theorem stale_approval_delivered :
    Runs (Life.Step staff7) {} ((played staff7 askAgain {}).1 ++ [secondReason] ++ [staleApproval])
      (staleApproval.after staff7) ∧
    staleApproval.told staff7 6 = [approvalText (of "k1")] ∧
    ¬Answers staff7 ((played staff7 askAgain {}).1 ++ [secondReason]) staleApproval := by
  have halive : survives staff7 askAgain {} = true := by decide +kernel
  have hrun : Runs (Life.Step staff7) {} ([] ++ (played staff7 askAgain {}).1) _ := Life.played .start halive
  rw [List.nil_append] at hrun
  have hsecond := Life.handled hrun secondReason (by simp only [secondReason]) (by decide +kernel)
  have hstale := Life.handled hsecond staleApproval (by simp only [staleApproval]) (by decide +kernel)
  have hgives : secondReason.GivesReason staff7 6 := by decide +kernel
  have hclick : staleApproval.x = .callback ⟨[], ⟨7, [], []⟩, 1, ⟨7, []⟩, of "approve_key_request_6"⟩ := by
    simp only [staleApproval, approval, clickFrom]
  have hdecides : .decideKey true 6 ∈ staleApproval.effects staff7 := by decide +kernel
  exact ⟨hstale, by decide +kernel, unannounced_decision hgives hclick (by decide) hdecides⟩

end Chanserv
