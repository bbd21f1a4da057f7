import Chanserv.Bot.CallbackMoves
import Chanserv.Bot.MessageMoves

/-! The pointer `uD` and the session it stands for.

`w.At me c` says that `uD` points to the live session of `me`, and that this
session and the shared state are the chat `c`. Programs that look up no session
but that of `me` stay there, and leave the sessions of all others alone. -/
namespace Chanserv
open Text Program

/-- `uD` points to the session of `me`; the chat is what it and all share. -/
def World.At (w : World) (me : Int) (c : Chat) : Prop :=
  ∃ a, w.uD = some ⟨me, a⟩ ∧ w.mSessions.lookup me = some ⟨a, c.ud⟩ ∧ w.sh = c.sh

/-- The sessions of everyone else, objects and contents. -/
def OthersKept (me : Int) (w w' : World) : Prop :=
  ∀ b ≠ me, w'.mSessions.lookup b = w.mSessions.lookup b

theorem OthersKept.refl (me : Int) (w : World) : OthersKept me w w := fun _ _ => rfl

theorem OthersKept.trans {me : Int} {w w' w'' : World} (h : OthersKept me w w')
    (h' : OthersKept me w' w'') : OthersKept me w w'' :=
  fun b hb => (h' b hb).trans (h b hb)

/-- The session as it is after another look at it. -/
def Chat.touch (now : Int) (c : Chat) : Chat := {c with ud := {c.ud with lastActivity := now}}

section
variable {α : Type} {me : Int} {w : World} {c : Chat} {Q : α → World → Prop} {E : Stop → World → Prop}

theorem World.At.current (h : w.At me c) : ∃ a, w.current = some (⟨me, a⟩, c.ud) := by
  obtain ⟨a, hp, hslot, -⟩ := h
  exact ⟨a, by simp only [World.current, hp, SessionStore.deref_of_lookup hslot, Option.map_some]⟩

theorem World.At.session (h : w.At me c) : w.session me = some c.ud := by
  obtain ⟨a, -, hslot, -⟩ := h
  rw [World.session, SessionStore.session, hslot, Option.map_some]

/-- `onSession` works on the session of `me`. -/
theorem wp_onSession {m : ChatM α} (hat : w.At me c)
    (h : wp m (fun a c' => ∀ w', w'.At me c' → OthersKept me w w' → Q a w')
      (fun stop c' => ∀ w', w'.At me c' → OthersKept me w w' → E stop w') c) :
    wp (onSession m) Q E w := by
  obtain ⟨a, hcur⟩ := hat.current
  have hput (c' : Chat) : (w.put ⟨me, a⟩ c').At me c' ∧ OthersKept me w (w.put ⟨me, a⟩ c') := by
    obtain ⟨a', hp, hslot, -⟩ := hat
    have ha : a' = a := by
      simp only [World.current, hp, SessionStore.deref_of_lookup hslot, Option.map_some,
        Option.some.injEq, Prod.mk.injEq, SessionPtr.mk.injEq] at hcur
      exact hcur.1.2
    exact ⟨⟨a, by rw [← ha]; exact hp, SessionStore.lookup_put _, rfl⟩,
      fun b hb => SessionStore.lookup_put_ne hb _⟩
  obtain ⟨-, -, -, hsh⟩ := hat
  unfold wp at h ⊢
  rw [run_onSession, hcur, hsh]
  dsimp only
  cases hm : m.run c with
  | ok b c' =>
    rw [hm] at h
    exact h _ (hput c').1 (hput c').2
  | error stop c' =>
    rw [hm] at h
    exact h _ (hput c').1 (hput c').2

/-- A look at a session: there is none and `uD` is null, or `uD` points to it. -/
theorem wp_selectSession {Q : Bool → World → Prop} (id now : Int)
    (hnone : w.session id = none → Q false {w with uD := none})
    (hsome : ∀ u, w.session id = some u → ∀ w', w'.At id ((⟨u, w.sh⟩ : Chat).touch now) →
      OthersKept id w w' → Q true w') :
    wp (selectSession now id) Q E w := by
  cases hslot : w.mSessions.lookup id with
  | none =>
    simp only [selectSession, wp_bind, wp_get, SessionStore.find_of_none hslot, wp_modify, wp_pure]
    refine hnone ?_
    rw [World.session, SessionStore.session, hslot, Option.map_none]
  | some slot =>
    simp only [selectSession, wp_bind, wp_get, SessionStore.find_of_lookup hslot, wp_modify, wp_pure]
    refine hsome slot.session ?_ _ ⟨slot.address, rfl, SessionStore.lookup_put _, rfl⟩ ?_
    · rw [World.session, SessionStore.session, hslot, Option.map_some]
    · exact fun b hb => SessionStore.lookup_put_ne hb _

/-- A handler that goes on in a session if there is one. -/
theorem wp_inSession {m : BotM Unit} {Q : Unit → World → Prop} (id now : Int)
    (hnone : w.session id = none → Q () {w with uD := none})
    (hsome : ∀ u, w.session id = some u → ∀ w', w'.At id ((⟨u, w.sh⟩ : Chat).touch now) →
      OthersKept id w w' → wp m Q E w') :
    wp (selectSession now id >>= fun found => guarded (found = true) m) Q E w := by
  rw [wp_bind]
  refine wp_selectSession id now (fun hs => ?_) fun u hu w' hat' ho' => ?_
  · exact wp_guarded_of_not Bool.false_ne_true (hnone hs)
  · exact wp_guarded_of rfl (hsome u hu w' hat' ho')

/-- The usual first line of a handler: another look at the own session finds it, and the handler goes on. -/
theorem wp_ownSession {m : BotM Unit} {Q : Unit → World → Prop} (hat : w.At me c) (now : Int)
    (h : ∀ w', w'.At me (c.touch now) → OthersKept me w w' → wp m Q E w') :
    wp (selectSession now me >>= fun found => guarded (found = true) m) Q E w := by
  have hs := hat.session
  obtain ⟨-, -, -, hsh⟩ := hat
  refine wp_inSession me now (fun hn => ?_) fun u hu w' hat' ho' => h w' ?_ ho'
  · rw [hs] at hn
    cases hn
  · obtain rfl := Option.some.inj (hs.symm.trans hu)
    rw [hsh] at hat'
    exact hat'

/-- A click that is no decision about a key. -/
theorem wp_ownClick {cfg : Config} {env : CallbackEnv} {q : CallbackQuery} {now : Int} {Q : Unit → World → Prop}
    (hkey : ¬(isApprove q.data ∨ isReject q.data)) (hrefused : ¬cfg.hasRole q.from_.id (roleForCallback q.data) → Q () w)
    (hown : wp (ownCallback cfg env q now) Q E w) : wp (onCallbackQuery cfg env q now) Q E w := by
  rw [onCallbackQuery, wp_guarded]
  refine ⟨fun _ => ?_, hrefused⟩
  rw [if_neg hkey, wp_bind, wp_pure]
  exact wp_guarded_of rfl hown

end

/-! ### Clicks in the own session -/

section
variable {cfg : Config} {may : RequiredRole → Prop} {env : UpdateEnv} {q : CallbackQuery} {me : Int}
  {w : World} {c : Chat}

/-- Every run of `m`, begun at the session of `me`, is one of the moves of that session. -/
def OwnLeads (may : RequiredRole → Prop) (env : UpdateEnv) (x : Update) (me : Int) (m : BotM Unit)
    (c : Chat) (w : World) : Prop :=
  wp m (fun _ w' => ∃ c', w'.At me c' ∧ OthersKept me w w' ∧ After may env x c none c')
    (fun stop w' => ∃ c', w'.At me c' ∧ OthersKept me w w' ∧ After may env x c (some stop) c') w

theorem OwnLeads.of_leads {x : Update} {m : ChatM Unit} (hat : w.At me c) (h : Leads may env x m c) :
    OwnLeads may env x me (onSession m) c w :=
  wp_onSession hat (wp_mono h (fun _ c' hc _ hw ho => ⟨c', hw, ho, hc⟩)
    fun _ c' hc _ hw ho => ⟨c', hw, ho, hc⟩)

theorem onMorePhotosCommand_leads (h : opening env c.ud (.callback q) = none)
    (hat : w.At q.from_.id c) (issue : PgdbIssue) :
    OwnLeads may env (.callback q) q.from_.id (onMorePhotosCommand env.callback q env.now issue) c w := by
  unfold OwnLeads onMorePhotosCommand
  refine wp_ownSession hat _ fun w₁ h₁ ho₁ => wp_onSession h₁ ?_
  simp only [wp_service, wp_call]
  exact
    ⟨fun _ _ w' hw ho => ⟨_, hw, ho₁.trans ho, kept_of h (by simp [Chat.touch]) rfl rfl rfl (by simp)⟩,
      fun _ _ w' hw ho => ⟨_, hw, ho₁.trans ho, kept_of h (by simp [Chat.touch]) rfl rfl rfl (by simp)⟩⟩

/-- The two dialogs that clear the task: they open when the click was on the last menu
and the first question could be sent. -/
theorem openDialog_leads {d : Dialog} (hd : d ≠ .tekla) {f : NewTask → NewTask} {prompt mode : Text}
    {stat : Nat} (hf : f {} = {d.start {} with stat := 0}) (hstat : stat = (d.start {}).stat)
    (hopen : opening env c.ud (.callback q) =
      if c.ud.clickedMsgId = q.messageId ∧ env.callback.prompt.Normal then some d else none)
    (hat : w.At q.from_.id c) :
    OwnLeads may env (.callback q) q.from_.id
      (openDialog q env.now f (askFirst env.callback q env.now prompt mode stat)) c w := by
  have hstart : {f {} with stat} = d.start c.ud.jiraTask := by
    rw [hf, hstat]
    cases d with
    | tekla => exact absurd rfl hd
    | _ => rfl
  unfold OwnLeads openDialog
  refine wp_ownSession hat _ fun w₁ h₁ ho₁ => ?_
  rw [wp_bind]
  refine wp_onSession h₁ ?_
  simp only [spendMenu, wp_bind, wp_get, wp_ite, wp_modifySession, wp_pure]
  refine ⟨fun hclick w₂ h₂ ho₂ => ?_, fun hclick w₂ h₂ ho₂ => ?_⟩
  · refine wp_guarded_of rfl ?_
    unfold askFirst
    refine wp_ownSession h₂ _ fun w₃ h₃ ho₃ => ?_
    have ho := ho₁.trans (ho₂.trans ho₃)
    refine wp_onSession h₃ ?_
    simp only [say, wp_bind, wp_service, wp_modifyTask, wp_call, wp_pure]
    refine ⟨fun _ hprompt w' hw ho' => ⟨_, hw, ho.trans ho', ?_⟩,
      fun _ hprompt w' hw ho' => ⟨_, hw, ho.trans ho', ?_⟩⟩
    · have hmoved : Moved may (opening env c.ud (.callback q)) (entersTekla env c.ud (.callback q))
          c.ud.jiraTask (.callback q) none [] {f {} with stat} := by
        rw [hstart]
        exact .opened (by rw [hopen, if_pos ⟨hclick, by rw [hprompt]; trivial⟩])
      exact .of (by simp [Chat.touch]) hmoved rfl rfl (by simp)
    · have hmoved {r : Option Stop} : Moved may (opening env c.ud (.callback q))
          (entersTekla env c.ud (.callback q)) c.ud.jiraTask (.callback q) r [] (f {}) := by
        rw [hf]
        exact .halfOpened (by rw [hopen, hprompt]; exact if_neg fun hn => hn.2) hd
      exact .of (by simp [Chat.touch]) hmoved rfl rfl (by simp)
  · refine wp_guarded_of_not Bool.false_ne_true ?_
    exact ⟨_, h₂, ho₁.trans ho₂,
      kept_of (by rw [hopen]; exact if_neg fun hn => hclick hn.1) rfl rfl rfl rfl (by simp)⟩

/-- The list of issues touches the task of the session in nothing. -/
def Listed (c c' : Chat) : Prop :=
  c'.sh.notes = c.sh.notes ∧ c'.ud.jiraTask = c.ud.jiraTask ∧ (Lockstep c.ud → Lockstep c'.ud)

theorem sendIssue_silent (receiver : Int) (issue : PgdbIssue) (r : Sending) :
    Silent (sendIssue receiver issue r) := by
  unfold sendIssue
  split <;> exact Silent.call rfl

theorem showMyIssues_listed (ienv : MyIssuesEnv) (receiver : Int) :
    wp (showMyIssues cfg ienv receiver) (fun _ => Listed c)
      (fun stop c' => stop.fatal = false ∧ Listed c c') c := by
  have hround (d : Chat) (hd : Listed c d) (issue : PgdbIssue) (r : Sending) :
      wp (do
        let sent ← service (sendIssue receiver issue r)
        modifySession (rememberIssue issue sent)) (fun _ => Listed c)
        (fun stop c' => stop.fatal = false ∧ Listed c c') d := by
    obtain ⟨hnotes, htask, hlists⟩ := hd
    simp only [wp_bind, wp_service, wp_modifySession]
    refine wp_mono (sendIssue_silent receiver issue r _)
      (fun sent sh hsh => ⟨hsh.trans hnotes, htask, fun h => ?_⟩)
      fun _ sh hsh => ⟨hsh.1, hsh.2.trans hnotes, htask, hlists⟩
    have := hlists h
    simp only [Lockstep, rememberIssue, List.length_append, List.length_singleton] at this ⊢
    omega
  unfold showMyIssues
  rw [wp_bind, wp_service]
  refine wp_mono (Silent.select _) (fun rows sh hsh => ?_) fun _ sh hsh => ⟨hsh.1, hsh.2, rfl, id⟩
  rw [showRows, wp_bind, wp_modifySession, wp_bind]
  have hstart : Listed c ⟨forgetIssues c.ud, sh⟩ := ⟨hsh, rfl, fun _ => rfl⟩
  refine wp_mono (wp_forEach (fun _ _ d hd => hround d hd _ _) hstart) (fun _ d hd => ?_)
    fun _ _ => id
  obtain ⟨hnotes, htask, hlists⟩ := hd
  simp only [wp_guarded, wp_bind, wp_service, wp_call, wp_pure]
  have hlog {sh : Shared} (h : sh.notes = d.sh.notes) : Listed c {d with sh} :=
    ⟨h.trans hnotes, htask, hlists⟩
  exact ⟨fun _ => ⟨fun _ _ => ⟨fun _ => ⟨fun _ _ => hlog (by simp), fun _ _ => ⟨rfl, hlog (by simp)⟩⟩,
    fun _ => hlog (by simp)⟩, fun _ _ => ⟨rfl, hlog (by simp)⟩⟩, fun _ => ⟨hnotes, htask, hlists⟩⟩

theorem onMyTasks_leads (h : opening env c.ud (.callback q) = none) (hat : w.At q.from_.id c) :
    OwnLeads may env (.callback q) q.from_.id (onMyTasks cfg env.callback q env.now) c w := by
  unfold OwnLeads onMyTasks
  rw [wp_bind]
  refine wp_onSession hat ?_
  simp only [spendMenu, wp_bind, wp_get, wp_ite, wp_modifySession, wp_pure]
  refine ⟨fun hclick w₁ h₁ ho₁ => ?_, fun hclick w₁ h₁ ho₁ => ?_⟩
  · refine wp_guarded_of rfl ?_
    rw [wp_inThread, getMyIssues]
    refine wp_ownSession h₁ _ fun w₂ h₂ ho₂ => ?_
    have hcleared {r : Option Stop} {d : Chat} (hr : r ≠ some .badAccess)
        (hd : Listed ((Chat.mk {c.ud with clickedMsgId := 0, jiraTask := {}} c.sh).touch env.now) d) :
        After may env (.callback q) c r d := by
      obtain ⟨hnotes, htask, hlists⟩ := hd
      refine ⟨⟨[], by rw [hnotes, List.append_nil]; rfl, ?_⟩, hlists, hr⟩
      rw [htask]
      exact .cleared h
    refine wp_onSession h₂ ?_
    refine wp_mono (showMyIssues_listed _ _) (fun _ d hd w' hw ho => ?_) fun stop d hd w' hw ho => ?_
    · exact ⟨d, hw, ho₁.trans (ho₂.trans ho), hcleared (by simp) hd⟩
    · cases stop with
      | throws e => exact ⟨d, hw, ho₁.trans (ho₂.trans ho), hcleared (by simp) hd.2⟩
      | _ => cases hd.1
  · refine wp_guarded_of_not Bool.false_ne_true ?_
    exact ⟨_, h₁, ho₁, kept_of h rfl rfl rfl rfl (by simp)⟩

/-- The button a click was on has the click's data. -/
theorem data_of_buttonOf {data : Text} {b : Button} (h : buttonOf data = some b) : data = b.data := by
  have := List.find?_some h
  exact (of_decide_eq_true this).symm

theorem clickedIssue_leads :
    wp (clickedIssue q) (fun _ c' => c' = c)
      (fun stop c' => After may env (.callback q) c (some stop) c') c := by
  rw [clickedIssue, wp_bind, wp_get]
  cases getSelectedIssueId q.messageId c.ud.pgdbIssues c.ud.recentMsgIds c.ud.recentMsgs with
  | none => exact .of (by simp) .halted rfl rfl (by simp)
  | some issue => exact rfl

/-- Every button's handler, when `may` covers the role the data asks for. -/
theorem pressButton_leads {b : Button} (hb : buttonOf q.data = some b)
    (hmay : may (roleForCallback q.data)) (hat : w.At q.from_.id c) (issue : Option PgdbIssue) :
    OwnLeads may env (.callback q) q.from_.id (pressButton cfg env.callback q env.now issue b) c w := by
  rw [data_of_buttonOf hb] at hmay
  have hopen (hne : b ≠ .newTask ∧ b ≠ .newFamily ∧ b ≠ .teklaGeneralIssue) :
      opening env c.ud (.callback q) = none := by
    rw [opening, hb]
    cases b with
    | newTask => exact absurd rfl hne.1
    | newFamily => exact absurd rfl hne.2.1
    | teklaGeneralIssue => exact absurd rfl hne.2.2
    | _ => rfl
  have hpass (hnone : opening env c.ud (.callback q) = none) :
      Leads may env (.callback q) (pure () : ChatM Unit) c :=
    kept_of hnone rfl rfl rfl rfl (by simp)
  cases b with
  | reqMasterKey => exact .of_leads hat (onReqMasterKey_leads (hopen (by decide)))
  | msgAsBot => exact .of_leads hat (openService_leads (hopen (by decide)) hmay (by decide))
  | msgToGpt => exact .of_leads hat (onMsgToGpt_leads (hopen (by decide)) hmay)
  | runCommand => exact .of_leads hat (openService_leads (hopen (by decide)) hmay (by decide))
  | rebootHost => exact .of_leads hat (onRebootHost_leads (hopen (by decide)) hmay)
  | addNewContractor =>
    exact .of_leads hat (ifClicked_leads (hopen (by decide)) fun _ =>
      openService_leads (hopen (by decide)) hmay (by decide))
  | setNewMsiVersion =>
    exact .of_leads hat (ifClicked_leads (hopen (by decide)) fun _ =>
      openService_leads (hopen (by decide)) hmay (by decide))
  | sendFile => exact .of_leads hat (onSendFile_leads (hopen (by decide)) hmay)
  | noMorePhotos => exact .of_leads hat (onNoMorePhotos_leads hb (hopen (by decide)))
  | myTasks => exact onMyTasks_leads (hopen (by decide)) hat
  | teklaEnterMenu => exact .of_leads hat (onTeklaEnterMenu_leads hb (hopen (by decide)))
  | teklaGeneralIssue => exact .of_leads hat (onTeklaGeneralIssue_leads hb)
  | teklaBack => exact .of_leads hat (onTeklaBack_leads (hopen (by decide)))
  | startSolving =>
    refine .of_leads hat ?_
    cases issue with
    | none => exact hpass (hopen (by decide))
    | some issue => exact onStartSolving_leads (hopen (by decide)) issue
  | newTask =>
    exact openDialog_leads (d := .task) (by decide) rfl rfl (by rw [opening, hb]) hat
  | newFamily =>
    exact openDialog_leads (d := .family) (by decide) rfl rfl (by rw [opening, hb]) hat
  | morePhotos =>
    cases issue with
    | none => exact ⟨c, hat, .refl _ _, kept_of (hopen (by decide)) rfl rfl rfl rfl (by simp)⟩
    | some issue => exact onMorePhotosCommand_leads (hopen (by decide)) hat issue
  | taskClosing =>
    refine .of_leads hat ?_
    cases issue with
    | none => exact hpass (hopen (by decide))
    | some issue => exact onTaskClosing_leads (hopen (by decide)) issue

end

end Chanserv
