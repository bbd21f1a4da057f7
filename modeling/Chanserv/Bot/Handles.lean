import Chanserv.Bot.KeyMoves

/-! What handling one update does to all sessions.

`Handles` is the specification of `handleUpdate`: where `uD` points afterwards,
what became of the session of the user who sent the update, and what of all
others. -/
namespace Chanserv
open Text Program

/-! ### Commands -/

section
variable {cfg : Config} {may : RequiredRole → Prop} {env : UpdateEnv} {m : Message} {w : World} {c : Chat}

/-- A menu changes nothing but which message is the last menu. -/
theorem startMenu_listed {cenv : CommandEnv} :
    wp (startMenu cfg cenv m) (fun _ => Listed c) (fun stop c' => stop.fatal = false ∧ Listed c c') c := by
  have hmenu (prompt : Text) (kb : Keyboard) (sh : Shared) (hsh : sh.notes = c.sh.notes) :
      wp (sendMenu cenv m prompt kb) (fun _ => Listed c)
        (fun stop c' => stop.fatal = false ∧ Listed c c') {c with sh} := by
    simp only [sendMenu, wp_bind, wp_service, wp_call, wp_modifySession]
    exact ⟨fun _ _ => ⟨by simpa using hsh, rfl, fun h => h⟩,
      fun _ _ => ⟨rfl, by simpa using hsh, rfl, fun h => h⟩⟩
  simp only [startMenu, wp_ite, wp_bind, wp_service, wp_call, wp_get]
  refine ⟨fun _ => hmenu _ _ _ rfl, fun _ => ⟨fun _ _ => ⟨fun _ => ?_, fun _ => ⟨fun _ => ?_, fun _ => ?_⟩⟩,
    fun _ _ => ⟨rfl, by simp, rfl, fun h => h⟩⟩⟩
  all_goals exact hmenu _ _ _ (by simp)

/-- Both commands clear the task. -/
theorem onCommand_leads (hat : w.At m.from_.id c) (name : Command) :
    OwnLeads may env (.command name m) m.from_.id (onCommand cfg env.command env.now m name) c w := by
  have hcleared {r : Option Stop} {d : Chat} (hr : r ≠ some .badAccess)
      (hd : Listed ⟨{c.ud with jiraTask := {}}, c.sh⟩ d) : After may env (.command name m) c r d := by
    obtain ⟨hnotes, htask, hlists⟩ := hd
    refine ⟨⟨[], by rw [hnotes, List.append_nil], ?_⟩, hlists, hr⟩
    rw [htask]
    exact .cleared rfl
  cases name with
  | help =>
    rw [OwnLeads, onCommand]
    refine wp_ownSession hat _ fun w₁ h₁ ho₁ => wp_onSession h₁ ?_
    simp only [wp_bind, wp_modifyTask, wp_service, wp_call, wp_pure]
    refine ⟨fun _ _ w₂ h₂ ho₂ => ⟨_, h₂, ho₁.trans ho₂, hcleared (by simp) ?_⟩,
      fun _ _ w₂ h₂ ho₂ => ⟨_, h₂, ho₁.trans ho₂, hcleared (by simp) ?_⟩⟩
    all_goals exact ⟨by simp [Chat.touch], rfl, fun h => h⟩
  | start =>
    rw [OwnLeads, onCommand]
    refine wp_ownSession hat _ fun w₁ h₁ ho₁ => ?_
    rw [wp_bind]
    refine wp_onSession h₁ ((wp_modifyTask _).mpr fun w₂ h₂ ho₂ => ?_)
    rw [onStartCommand]
    refine wp_ownSession h₂ _ fun w₃ h₃ ho₃ => ?_
    have ho := ho₁.trans (ho₂.trans ho₃)
    refine wp_onSession h₃ ?_
    refine wp_mono startMenu_listed (fun _ d hd w₄ h₄ ho₄ => ?_) fun stop d hd w₄ h₄ ho₄ => ?_
    · exact ⟨d, h₄, ho.trans ho₄, hcleared (by simp) hd⟩
    · refine ⟨d, h₄, ho.trans ho₄, hcleared (fun hs => ?_) hd.2⟩
      rw [Option.some.injEq] at hs
      rw [hs] at hd
      cases hd.1

end

/-! ### The dispatcher -/

/-- The session a handler starts with: found, or made anew. -/
inductive Arrives (now me : Int) (w : World) (u₁ : UserDispatcher) : Prop
  | found {u : UserDispatcher} (hu : w.session me = some u) (h : LookedAt now u u₁)
  | new (htask : u₁.jiraTask = {}) (hlists : Lockstep u₁)

theorem Arrives.touch {now me : Int} {w : World} {u₁ : UserDispatcher} (h : Arrives now me w u₁) :
    Arrives now me w {u₁ with lastActivity := now} := by
  cases h with
  | found hu h => exact .found hu h.touch
  | new htask hlists => exact .new htask hlists

section
variable {cfg : Config} {now : Int} {w w₁ : World}

/-- A session that was evicted had been idle longer than the ttl. -/
def Evicted (cfg : Config) (now b : Int) (w w' : World) : Prop :=
  ∃ u, w.session b = some u ∧ SessionStore.idle now (sessionTtl cfg) u ∧ w'.session b = none

/-- The sessions left after an eviction, and the pointer. -/
structure Cleaned (cfg : Config) (now : Int) (w w' : World) : Prop where
  shared : w'.sh = w.sh
  sessions : ∀ b, w'.session b = w.session b ∨ Evicted cfg now b w w'
  pointer : w.Sound → w'.Sound

theorem evictIdleSessions_cleaned {E : Stop → World → Prop} :
    wp (evictIdleSessions cfg now) (fun _ => Cleaned cfg now w) E w := by
  rw [evictIdleSessions, wp_bind, wp_get, wp_guarded]
  refine ⟨fun _ => ?_, fun _ => ⟨rfl, fun _ => .inl rfl, id⟩⟩
  rw [wp_bind, wp_modify, wp_modify]
  refine ⟨rfl, fun b => ?_, fun _ _ hp => by cases hp⟩
  simp only [Evicted, World.session, SessionStore.session, SessionStore.lookup_evictIdle]
  cases hslot : w.mSessions.lookup b with
  | none => exact .inl rfl
  | some slot =>
    simp only [Option.filter_some]
    cases hidle : SessionStore.idle now (sessionTtl cfg) slot.session with
    | false => exact .inl rfl
    | true => exact .inr ⟨slot.session, rfl, hidle, rfl⟩

/-- After a dispatch `uD` points to the session of who sent the message. -/
structure Dispatched (cfg : Config) (now me : Int) (w w' : World) : Prop where
  notes : w'.sh.notes = w.sh.notes
  others : ∀ b ≠ me, w'.session b = w.session b ∨ Evicted cfg now b w w'
  here : ∃ u, Arrives now me w u ∧ w'.At me ⟨u, w'.sh⟩

/-- The session that `create` makes. -/
def Message.newSession (m : Message) (now : Int) : UserDispatcher :=
  { chatUserTgId := m.from_.id, chatUserTgName := m.from_.username, chatUserFirstName := m.from_.firstName,
    lastActivity := now }

/-- The last lines of the dispatcher: the session is made, or found. -/
theorem wp_findOrCreate {m : Message} {create : World → World} {Q : Unit → World → Prop} {E : Stop → World → Prop}
    (hcreate : ∀ w : World, create w = {w with
      uD := some (w.mSessions.create m.from_.id m.from_.username m.from_.firstName now).1,
      mSessions := (w.mSessions.create m.from_.id m.from_.username m.from_.firstName now).2})
    (hnew : w.session m.from_.id = none → ∀ w', w'.At m.from_.id ⟨m.newSession now, w.sh⟩ →
      OthersKept m.from_.id w w' → Q () w')
    (hfound : ∀ u, w.session m.from_.id = some u → ∀ w', w'.At m.from_.id ((⟨u, w.sh⟩ : Chat).touch now) →
      OthersKept m.from_.id w w' → Q () w') :
    wp (do
      let found ← selectSession now m.from_.id
      guarded (found = false) (modify create)) Q E w := by
  rw [wp_bind]
  refine wp_selectSession _ _ (fun hs => wp_guarded_of rfl ?_) fun u hu w' hat' ho' => ?_
  · have hnone : w.mSessions.lookup m.from_.id = none := Option.map_eq_none_iff.mp hs
    have hfind := SessionStore.find_of_none hnone now
    rw [wp_modify, hcreate]
    simp only [SessionStore.create, hfind]
    exact hnew hs _ ⟨_, rfl, AList.lookup_insert _, rfl⟩ fun b hb => AList.lookup_insert_ne hb
  · exact wp_guarded_of_not Bool.false_ne_true.symm (hfound u hu w' hat' ho')

theorem find_or_create {E : Stop → World → Prop} {m : Message} (hc : Cleaned cfg now w w₁) :
    wp (do
      let found ← selectSession now m.from_.id
      guarded (found = false) <| modify fun w =>
        let (p, store) := w.mSessions.create m.from_.id m.from_.username m.from_.firstName now
        {w with uD := some p, mSessions := store})
      (fun _ => Dispatched cfg now m.from_.id w) E w₁ := by
  have hothers {w₂ : World} (h : ∀ b ≠ m.from_.id, w₂.session b = w₁.session b) (b : Int)
      (hb : b ≠ m.from_.id) : w₂.session b = w.session b ∨ Evicted cfg now b w w₂ := by
    rcases hc.sessions b with hs | ⟨u, hu, hidle, hs⟩
    · exact .inl ((h b hb).trans hs)
    · exact .inr ⟨u, hu, hidle, (h b hb).trans hs⟩
  refine wp_findOrCreate (fun _ => rfl) (fun hs w₂ h₂ ho₂ => ?_) fun u hu w₂ h₂ ho₂ => ?_
  · have hsh : w₂.sh = w₁.sh := by obtain ⟨-, -, -, hsh⟩ := h₂; exact hsh
    exact ⟨by rw [hsh, hc.shared], hothers fun b hb => ho₂.session hb, _, .new (by rfl) (by rfl), h₂.eta⟩
  · have hsh : w₂.sh = w₁.sh := by obtain ⟨-, -, -, hsh⟩ := h₂; exact hsh
    refine ⟨by rw [hsh, hc.shared], hothers fun b hb => ho₂.session hb, _, ?_, h₂.eta⟩
    rcases hc.sessions m.from_.id with hs | ⟨-, -, -, hs⟩
    · exact .found (hs.symm.trans hu) (.touch (.refl _ _))
    · rw [hs] at hu; cases hu

theorem Silent.addConsumerToDb {denv : DispatcherEnv} {user : TgUser} :
    Silent (addConsumerToDb denv user) :=
  Keeps.reads.bind fun _ => Keeps.guarded fun _ =>
    (Silent.sql rfl).bind fun _ => Keeps.guarded fun _ => (Silent.call rfl).bind fun _ => Keeps.done _

theorem sessionDispatcher_dispatched {denv : DispatcherEnv} {m : Message} :
    wp (sessionDispatcher cfg denv now m) (fun _ => Dispatched cfg now m.from_.id w)
      (fun stop w' => stop.fatal = false ∧ w'.sh.notes = w.sh.notes ∧
        w'.uD = w.uD ∧ w'.mSessions = w.mSessions) w := by
  have hrest {sh : Shared} (hsh : sh.notes = w.sh.notes) {E : Stop → World → Prop} :
      wp (do
        evictIdleSessions cfg now
        let found ← selectSession now m.from_.id
        guarded (found = false) <| modify fun w =>
          let (p, store) := w.mSessions.create m.from_.id m.from_.username m.from_.firstName now
          {w with uD := some p, mSessions := store})
        (fun _ => Dispatched cfg now m.from_.id w) E {w with sh} := by
    rw [wp_bind]
    refine wp_mono evictIdleSessions_cleaned (fun _ w₁ hc => ?_) fun _ _ => id
    refine wp_mono (find_or_create hc) (fun _ w₂ hd => ?_) fun _ _ => id
    obtain ⟨hnotes, hothers, u, hu, hat⟩ := hd
    refine ⟨hnotes.trans hsh, hothers, u, ?_, hat⟩
    cases hu with
    | found hu h => exact .found hu h
    | new htask hlists => exact .new htask hlists
  have hload : Silent (do addConsumerToDb denv m.from_; reloadConsumersList denv.selectConsumers) :=
    Silent.addConsumerToDb.bind fun _ => Silent.reloadConsumersList
  rw [sessionDispatcher, wp_bind, wp_get, wp_bind, wp_guarded]
  refine ⟨fun _ => ?_, fun _ => hrest rfl⟩
  rw [serviceBot, wp_zoom]
  exact wp_mono (hload _) (fun _ sh hsh => hrest hsh) fun _ sh hsh => ⟨hsh.1, hsh.2, rfl, rfl⟩

end

/-! ### The specification -/

/-- The task small talk finds in the session, when it gets to see the message. -/
def facing (cfg : Config) (env : UpdateEnv) (w : World) (m : Message) : Option NewTask :=
  match (sessionDispatcher cfg env.dispatcher env.now m).run w with
  | .ok _ w' => (w'.session m.from_.id).map (·.jiraTask)
  | .error _ _ => none

/-- The step a message arrives at, and its text. -/
def heard (cfg : Config) (env : UpdateEnv) (w : World) : Update → Option (Nat × Text)
  | .message m => (facing cfg env w m).map fun t => (t.stat, m.text)
  | _ => none

/-- The dialog an update opens. -/
def opened (env : UpdateEnv) (w : World) (x : Update) : Option Dialog :=
  (w.session x.fromId).bind fun u => opening env u x

section
variable (cfg : Config) (env : UpdateEnv) (x : Update) (w : World)

/-- Decisions about keys, by a user who may make them. -/
def Decisions (ks : List Effect) : Prop :=
  ∀ e ∈ ks, e.privilege = some .staff ∧ cfg.hasRole x.fromId .staff

/-- What becomes of the session of another user. -/
inductive Other (w' : World) (b : Int) : Prop
  | kept (h : w'.session b = w.session b)
  | decided {q : CallbackQuery} {u u' : UserDispatcher} (hx : x = .callback q)
      (hkey : isApprove q.data ∨ isReject q.data) (hmay : cfg.hasRole q.from_.id .staff)
      (hb : requesterId q.data = some b) (hs : w.session b = some u) (hs' : w'.session b = some u')
      (hu : LookedAt env.now u u')
  | evicted (hx : ∀ q, x ≠ .callback q) (h : Evicted cfg env.now b w w')

/-- What becomes of the session of the user who sent the update. -/
inductive Own (r : Option Stop) (w' : World) : Prop
  /-- No handler got to it. -/
  | idle {ks : List Effect} (hheard : heard cfg env w x = none) (hopened : opened env w x = none)
      (hnotes : w'.sh.notes = w.sh.notes ++ ks) (hks : Decisions cfg x ks)
      (hs : w'.session x.fromId = w.session x.fromId ∨
        ∃ u u', w.session x.fromId = some u ∧ w'.session x.fromId = some u' ∧ LookedAt env.now u u')
  | moved {u u' : UserDispatcher} {ks ns : List Effect} (hu : Arrives env.now x.fromId w u)
      (hs' : w'.session x.fromId = some u')
      (hheard : ∀ m, x = .message m → heard cfg env w x = some (u.jiraTask.stat, m.text))
      (hopened : opened env w x = opening env u x)
      (hnotes : w'.sh.notes = w.sh.notes ++ ks ++ ns) (hks : Decisions cfg x ks)
      (hmoved : Moved (fun role => cfg.hasRole x.fromId role) (opening env u x) (entersTekla env u x)
        u.jiraTask x r ns u'.jiraTask)
      (hlists : Lockstep u → Lockstep u')

structure Handles (r : Option Stop) (w' : World) : Prop where
  pointer : w.Sound → w'.Sound
  access : r ≠ some .badAccess
  others : ∀ b ≠ x.fromId, Other cfg env x w w' b
  own : Own cfg env x w r w'

end

section
variable {cfg : Config} {env : UpdateEnv} {x : Update} {m : Message} {q : CallbackQuery} {w : World}

/-- From the dispatcher to the end of the handler. -/
theorem handles_of_dispatched {w₁ w₂ : World} {r : Option Stop} (hx : ∀ q, x ≠ .callback q)
    (hd : Dispatched cfg env.now x.fromId w w₁) {u : UserDispatcher}
    (hu : Arrives env.now x.fromId w u) {sh : Shared} (hsh : sh.notes = w.sh.notes)
    (hheard : ∀ m, x = .message m → heard cfg env w x = some (u.jiraTask.stat, m.text))
    {c : Chat} (h₂ : w₂.At x.fromId c) (ho : OthersKept x.fromId w₁ w₂)
    (hafter : After (fun role => cfg.hasRole x.fromId role) env x ⟨u, sh⟩ r c) :
    Handles cfg env x w r w₂ where
  pointer _ := h₂.sound
  access := hafter.access
  others b hb := by
    rcases hd.others b hb with hs | ⟨v, hv, hidle, hs⟩
    · exact .kept ((ho.session hb).trans hs)
    · exact .evicted hx ⟨v, hv, hidle, (ho.session hb).trans hs⟩
  own := by
    obtain ⟨ns, hnotes, hmoved⟩ := hafter.moved
    have hopened : opened env w x = opening env u x := by
      cases x with
      | callback q => exact absurd rfl (hx q)
      | _ => simp only [opened, opening]; cases w.session _ <;> rfl
    have hall : w₂.sh.notes = w.sh.notes ++ [] ++ ns := by
      obtain ⟨-, -, -, hsh₂⟩ := h₂
      rw [hsh₂, hnotes, hsh, List.append_nil]
    exact .moved hu h₂.session hheard hopened hall (by simp [Decisions]) hmoved hafter.lockstep

/-- A dispatch that failed. -/
theorem handles_of_failed {stop : Stop} {w' : World} (hx : ∀ q, x ≠ .callback q)
    (hheard : heard cfg env w x = none) (hstop : stop.fatal = false)
    (hnotes : w'.sh.notes = w.sh.notes) (hp : w'.uD = w.uD) (hs : w'.mSessions = w.mSessions) :
    Handles cfg env x w (some stop) w' := by
  have hsession (b : Int) : w'.session b = w.session b := congrArg (SessionStore.session · b) hs
  refine ⟨fun h p hp' => ?_, fun hn => ?_, fun b _ => .kept (hsession b), ?_⟩
  · rw [hs]
    exact h p (hp ▸ hp')
  · rw [Option.some.injEq] at hn
    rw [hn] at hstop
    cases hstop
  · have hall : w'.sh.notes = w.sh.notes ++ [] := by rw [hnotes, List.append_nil]
    refine .idle hheard ?_ hall (by simp [Decisions]) (.inl (hsession _))
    cases x with
    | callback q => exact absurd rfl (hx q)
    | _ => simp only [opened, opening]; cases w.session _ <;> rfl

theorem handleUpdate_message :
    wp (handleUpdate cfg env (.message m)) (fun _ => Handles cfg env (.message m) w none)
      (fun stop => Handles cfg env (.message m) w (some stop)) w := by
  rw [handleUpdate, wp_bind]
  refine wp_mono (wp_run sessionDispatcher_dispatched) (fun _ w₁ h₁ => ?_) fun stop w₁ h₁ => ?_
  · obtain ⟨hrun, hd⟩ := h₁
    have ⟨hnotes, _, u, hu, hat⟩ := hd
    have hheard : heard cfg env w (.message m) = some (u.jiraTask.stat, m.text) := by
      simp only [heard, facing, hrun, hat.session, Option.map_some]
    have hafter {r : Option Stop} {w₂ : World} {c : Chat} (h₂ : w₂.At m.from_.id c)
        (ho : OthersKept m.from_.id w₁ w₂) (hafter : After (fun role => cfg.hasRole m.from_.id role)
          env (.message m) (Chat.touch env.now ⟨u, w₁.sh⟩) r c) :
        Handles cfg env (.message m) w r w₂ :=
      handles_of_dispatched (fun _ => by simp) hd hu.touch hnotes
        (fun m' hm' => by cases hm'; exact hheard) h₂ ho hafter
    rw [handleSmallTalk]
    refine wp_ownSession hat _ fun w₂ h₂ ho₂ => wp_onSession h₂ ?_
    exact wp_mono (smallTalk_leads id) (fun _ d hd w₃ h₃ ho₃ => hafter h₃ (ho₂.trans ho₃) hd)
      fun stop d hd w₃ h₃ ho₃ => hafter h₃ (ho₂.trans ho₃) hd
  · obtain ⟨hrun, hstop, hnotes, hp, hs⟩ := h₁
    exact handles_of_failed (fun _ => by simp) (by simp only [heard, facing, hrun, Option.map_none]) hstop hnotes hp hs

theorem handleUpdate_command (name : Command) :
    wp (handleUpdate cfg env (.command name m)) (fun _ => Handles cfg env (.command name m) w none)
      (fun stop => Handles cfg env (.command name m) w (some stop)) w := by
  rw [handleUpdate, wp_bind]
  refine wp_mono sessionDispatcher_dispatched (fun _ w₁ hd => ?_) fun stop w₁ h₁ => ?_
  · have ⟨hnotes, _, u, hu, hat⟩ := hd
    have hafter {r : Option Stop} {w₂ : World}
        (h : ∃ c, w₂.At m.from_.id c ∧ OthersKept m.from_.id w₁ w₂ ∧
          After (fun role => cfg.hasRole m.from_.id role) env (.command name m) ⟨u, w₁.sh⟩ r c) :
        Handles cfg env (.command name m) w r w₂ := by
      obtain ⟨c, h₂, ho, hafter⟩ := h
      exact handles_of_dispatched (fun _ => by simp) hd hu hnotes (fun _ => by simp) h₂ ho hafter
    exact wp_mono (onCommand_leads hat name) (fun _ _ => hafter) fun _ _ => hafter
  · obtain ⟨hstop, hnotes, hp, hs⟩ := h₁
    exact handles_of_failed (fun _ => by simp) rfl hstop hnotes hp hs

/-- Clicks that open a dialog are open to everyone, and are no decisions. -/
theorem opening_data {u : UserDispatcher} (h : opening env u (.callback q) ≠ none) :
    roleForCallback q.data = .anyone ∧ ¬(isApprove q.data ∨ isReject q.data) := by
  have hdata : q.data = Button.newTask.data ∨ q.data = Button.newFamily.data ∨
      q.data = Button.teklaGeneralIssue.data := by
    rw [opening] at h
    split at h
    · exact .inl (data_of_buttonOf (by assumption))
    · exact .inr (.inl (data_of_buttonOf (by assumption)))
    · exact .inr (.inr (data_of_buttonOf (by assumption)))
    · exact absurd rfl h
  rcases hdata with hd | hd | hd
  all_goals rw [hd]; decide

theorem opened_eq_none (h : ¬cfg.hasRole q.from_.id (roleForCallback q.data) ∨
    isApprove q.data ∨ isReject q.data) : opened env w (.callback q) = none := by
  rw [opened, Option.bind_eq_none_iff]
  intro u _
  by_contra hne
  obtain ⟨hrole, hkey⟩ := opening_data hne
  rcases h with h | h
  · rw [hrole] at h
    exact h (isAllowed_anyone _ _)
  · exact hkey h

theorem roleForCallback_key (h : isApprove q.data ∨ isReject q.data) :
    roleForCallback q.data = .staff := by
  have hdev : ¬(q.data = of "msg_as_bot" ∨ q.data = of "msg_to_gpt" ∨ q.data = of "run_command" ∨
      q.data = of "reboot_host" ∨ q.data = of "send_file") := by
    rintro (hd | hd | hd | hd | hd)
    all_goals rw [hd] at h; revert h; decide
  rw [roleForCallback, if_neg hdev, if_pos (.inr (.inr h))]

/-- What is behind a click when its own session's handlers begin. -/
structure Clicked (cfg : Config) (env : UpdateEnv) (q : CallbackQuery) (w w₁ : World) : Prop where
  pointer : w.Sound → w₁.Sound
  notes : ∃ ks, w₁.sh.notes = w.sh.notes ++ ks ∧ Decisions cfg (.callback q) ks
  sessions : ∀ b, w₁.session b = w.session b ∨
    (isApprove q.data ∨ isReject q.data) ∧ cfg.hasRole q.from_.id .staff ∧
      requesterId q.data = some b ∧
      ∃ u u', w.session b = some u ∧ w₁.session b = some u' ∧ LookedAt env.now u u'

theorem Clicked.refl (w : World) : Clicked cfg env q w w :=
  ⟨id, ⟨[], by rw [List.append_nil], by simp [Decisions]⟩, fun _ => .inl rfl⟩

theorem Clicked.of_decided {w₁ : World} {requester : Int} (hkey : isApprove q.data ∨ isReject q.data)
    (hmay : cfg.hasRole q.from_.id .staff) (hreq : requesterId q.data = some requester)
    (h : Decided env.now requester w w₁) : Clicked cfg env q w w₁ := by
  obtain ⟨ks, hks, hstaff⟩ := h.notes
  refine ⟨fun _ => ?_, ⟨ks, hks, fun e he => ⟨hstaff e he, hmay⟩⟩, fun b => ?_⟩
  · cases hu : w.session requester with
    | none =>
      intro p hp
      rw [(h.absent hu).2] at hp
      cases hp
    | some u =>
      obtain ⟨u', -, hat⟩ := h.present u hu
      exact hat.sound
  · by_cases hb : b = requester
    · subst hb
      cases hu : w.session b with
      | none => exact .inl (h.absent hu).1
      | some u =>
        obtain ⟨u', hlook, hat⟩ := h.present u hu
        exact .inr ⟨hkey, hmay, hreq, u, u', rfl, hat.session, hlook⟩
    · exact .inl (h.others.session hb)

theorem Clicked.other {w₁ w₂ : World} (h : Clicked cfg env q w w₁) {b : Int}
    (hb : w₂.session b = w₁.session b) : Other cfg env (.callback q) w w₂ b := by
  rcases h.sessions b with hs | ⟨hkey, hmay, hreq, u, u', hs, hs', hlook⟩
  · exact .kept (hb.trans hs)
  · exact .decided rfl hkey hmay hreq hs (hb.trans hs') hlook

/-- A click no handler of the own session gets to see. -/
theorem Clicked.handles {w₁ : World} {r : Option Stop} (h : Clicked cfg env q w w₁)
    (hopened : opened env w (.callback q) = none) (hr : r ≠ some .badAccess) :
    Handles cfg env (.callback q) w r w₁ := by
  refine ⟨h.pointer, hr, fun b _ => h.other rfl, ?_⟩
  obtain ⟨ks, hks, hstaff⟩ := h.notes
  refine .idle rfl hopened hks hstaff ?_
  rcases h.sessions q.from_.id with hs | ⟨-, -, -, u, u', hs, hs', hlook⟩
  · exact .inl hs
  · exact .inr ⟨u, u', hs, hs', hlook⟩

/-- The session a click finds is that from before, looked at. -/
theorem Clicked.found {w₁ : World} (h : Clicked cfg env q w w₁) {u : UserDispatcher}
    (hu : w₁.session q.from_.id = some u) :
    ∃ u₀, w.session q.from_.id = some u₀ ∧ LookedAt env.now u₀ u := by
  rcases h.sessions q.from_.id with hs | ⟨-, -, -, u₀, u', hs, hs', hlook⟩
  · exact ⟨u, hs.symm.trans hu, .refl _ _⟩
  · rw [hs', Option.some.injEq] at hu
    exact ⟨u₀, hs, hu ▸ hlook⟩

theorem Clicked.moved {w₁ w₂ w₃ : World} {r : Option Stop} (h : Clicked cfg env q w w₁)
    {u : UserDispatcher} (hu : w₁.session q.from_.id = some u)
    (ho₂ : OthersKept q.from_.id w₁ w₂)
    (hdone : ∃ c, w₃.At q.from_.id c ∧ OthersKept q.from_.id w₂ w₃ ∧
      After (fun role => cfg.hasRole q.from_.id role) env (.callback q)
        (Chat.touch env.now ⟨u, w₁.sh⟩) r c) :
    Handles cfg env (.callback q) w r w₃ := by
  obtain ⟨c, h₃, ho₃, hafter⟩ := hdone
  obtain ⟨u₀, hu₀, hlook⟩ := h.found hu
  refine ⟨fun _ => h₃.sound, hafter.access, fun b hb => h.other ((ho₂.trans ho₃).session hb), ?_⟩
  obtain ⟨ks, hks, hstaff⟩ := h.notes
  obtain ⟨ns, hns, hmoved⟩ := hafter.moved
  refine .moved (.found hu₀ hlook.touch) h₃.session (fun m hm => (by cases hm)) ?_ ?_ hstaff hmoved
    hafter.lockstep
  · rw [opened, Update.fromId, hu₀, Option.bind_some]
    exact (hlook.opening env _).symm
  · obtain ⟨-, -, -, hsh⟩ := h₃
    rw [hsh, hns]
    exact congrArg (· ++ ns) hks

theorem ownCallback_handles {w₁ : World} (h : Clicked cfg env q w w₁)
    (hrole : cfg.hasRole q.from_.id (roleForCallback q.data)) :
    wp (ownCallback cfg env.callback q env.now) (fun _ => Handles cfg env (.callback q) w none)
      (fun stop => Handles cfg env (.callback q) w (some stop)) w₁ := by
  rw [ownCallback]
  refine wp_inSession _ _ (fun hs => ?_) fun u hu w₂ h₂ ho₂ => ?_
  · have hopened : opened env w (.callback q) = none := by
      rw [opened, Option.bind_eq_none_iff]
      intro u₀ hu₀
      rw [Update.fromId] at hu₀
      rcases h.sessions q.from_.id with hs' | ⟨-, -, -, -, u', -, hs', -⟩
      · rw [← hs', hs] at hu₀; cases hu₀
      · rw [hs] at hs'; cases hs'
    have hunset : Clicked cfg env q w {w₁ with uD := none} :=
      ⟨fun _ _ hp => (by cases hp), h.notes, h.sessions⟩
    exact hunset.handles hopened (by simp)
  · have hmoved {w₃ : World} {r : Option Stop} (hdone : ∃ c, w₃.At q.from_.id c ∧
        OthersKept q.from_.id w₂ w₃ ∧ After (fun role => cfg.hasRole q.from_.id role) env (.callback q)
          (Chat.touch env.now ⟨u, w₁.sh⟩) r c) : Handles cfg env (.callback q) w r w₃ :=
      h.moved hu ho₂ hdone
    rw [wp_bind]
    refine wp_onSession h₂ (wp_mono clickedIssue_leads (fun issue d hd w₃ h₃ ho₃ => ?_)
      fun stop d hd w₃ h₃ ho₃ => hmoved ⟨d, h₃, ho₃, hd⟩)
    rw [hd] at h₃
    cases hb : buttonOf q.data with
    | none =>
      exact hmoved ⟨_, h₃, ho₃, kept_of (by rw [opening, hb]) rfl rfl rfl rfl (by simp)⟩
    | some b =>
      have hpress : OwnLeads (fun role => cfg.hasRole q.from_.id role) env (.callback q) q.from_.id
          (pressButton cfg env.callback q env.now issue b) (Chat.touch env.now ⟨u, w₁.sh⟩) w₃ :=
        pressButton_leads hb hrole h₃ issue
      refine wp_mono hpress (fun _ w₄ hdone => ?_)
        fun stop w₄ hdone => ?_
      all_goals
        obtain ⟨c, h₄, ho₄, hafter⟩ := hdone
        exact hmoved ⟨c, h₄, ho₃.trans ho₄, hafter⟩

theorem handleUpdate_callback :
    wp (handleUpdate cfg env (.callback q)) (fun _ => Handles cfg env (.callback q) w none)
      (fun stop => Handles cfg env (.callback q) w (some stop)) w := by
  rw [handleUpdate, onCallbackQuery, wp_guarded]
  refine ⟨fun hrole => ?_, fun hrole => ?_⟩
  · dsimp only
    rw [wp_ite]
    refine ⟨fun hkey => ?_, fun _ => ?_⟩
    · have hmay : cfg.hasRole q.from_.id .staff := roleForCallback_key hkey ▸ hrole
      have hclosed : ¬cfg.hasRole q.from_.id (roleForCallback q.data) ∨
          isApprove q.data ∨ isReject q.data := .inr hkey
      have hopened : opened env w (.callback q) = none := opened_eq_none hclosed
      rw [wp_bind]
      refine wp_mono keyDecision_decided (fun goesOn w₁ h₁ => ?_) fun stop w₁ h₁ => ?_
      · have hclicked : Clicked cfg env q w w₁ := by
          rcases h₁ with rfl | ⟨requester, hreq, hd⟩
          · exact .refl _
          · exact .of_decided hkey hmay hreq hd
        rw [wp_guarded]
        exact ⟨fun _ => ownCallback_handles hclicked hrole,
          fun _ => hclicked.handles hopened (by simp)⟩
      · obtain ⟨hstop, requester, hreq, hd⟩ := h₁
        exact (Clicked.of_decided hkey hmay hreq hd).handles hopened (by simpa using hstop)
    · simp only [wp_bind, wp_pure, wp_guarded]
      exact ⟨fun _ => ownCallback_handles (.refl w) hrole, fun hn => absurd trivial hn⟩
  · exact (Clicked.refl w).handles (opened_eq_none (.inl hrole)) (by simp)

/-- Every update, in every state and with every answer of the world. -/
theorem handleUpdate_handles (cfg : Config) (env : UpdateEnv) (x : Update) (w : World) :
    Handles cfg env x w (failure (handleUpdate cfg env x) w) (final (handleUpdate cfg env x) w) := by
  refine of_wp (P := Handles cfg env x w) ?_
  cases x with
  | command name m => exact handleUpdate_command name
  | message m => exact handleUpdate_message
  | callback q => exact handleUpdate_callback

end

end Chanserv
