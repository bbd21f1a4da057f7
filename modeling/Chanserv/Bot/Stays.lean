import Chanserv.Bot.Own
import Chanserv.Filing.Table

/-! Programs that put no issue on anybody's list.

Issues get on a contractor's list by `my_tasks` only, and rows into the table by
filing a task only. All other programs stay within `KeptLists`: a session keeps its
vectors or is made anew, and what all share changes within a preorder of its own. Programs stay in a
preorder by their shape, and instances see it. -/
namespace Chanserv
open Text Program

/-! ### Staying within a preorder -/

section
variable {σ α β ι : Type} {R : σ → σ → Prop}

/-- Every run, completed or not, leads to a related state. -/
class Stays (R : σ → σ → Prop) (m : EStateM Stop σ α) : Prop where
  within : Within R m

instance {m : EStateM Stop σ α} : Stays (fun _ _ => True) m where
  within s := by
    unfold wp
    cases m.run s <;> trivial

variable {m : EStateM Stop σ α}

/-- What leaves a view of the state alone, when that is enough. -/
theorem Stays.of_frames {γ : Type} {view : σ → γ} (h : Frames view m)
    (hR : ∀ s s', view s' = view s → R s s') : Stays R m where
  within s := wp_mono (h.keeps s) (fun _ s' hs => hR s s' hs) fun _ s' hs => hR s s' hs.2

theorem Stays.handling [IsTrans σ R] {h : Stop → EStateM Stop σ α} (hm : Stays R m) (hh : ∀ e, Stays R (h e)) :
    Stays R (handling m h) :=
  ⟨.handling hm.within fun e => (hh e).within⟩

variable [Std.Refl R]

instance (a : α) : Stays R (pure a : EStateM Stop σ α) := ⟨.done a⟩

instance (e : Stop) : Stays R (throw e : EStateM Stop σ α) := ⟨.fails⟩

instance : Stays R (get : EStateM Stop σ σ) := ⟨.reads⟩

instance {c : Prop} [Decidable c] {m : EStateM Stop σ Unit} [hm : Stays R m] : Stays R (guarded c m) :=
  ⟨.guarded fun _ => hm.within⟩

instance {c : Prop} [Decidable c] {m' : EStateM Stop σ α} [hm : Stays R m] [hm' : Stays R m'] :
    Stays R (if c then m else m') := by
  split
  · exact hm
  · exact hm'

variable [IsTrans σ R]

omit [Std.Refl R] in
theorem Stays.bind {f : α → EStateM Stop σ β} (hm : Stays R m) (hf : ∀ a, Stays R (f a)) : Stays R (m >>= f) :=
  ⟨hm.within.bind fun a => (hf a).within⟩

instance {f : α → EStateM Stop σ β} [hm : Stays R m] [hf : ∀ a, Stays R (f a)] : Stays R (m >>= f) := hm.bind hf

instance {is : List ι} {f : ι → EStateM Stop σ Unit} [hf : ∀ i, Stays R (f i)] : Stays R (forEach is f) :=
  ⟨.forEach fun i _ => (hf i).within⟩

instance {h : Exn → EStateM Stop σ α} [hm : Stays R m] [hh : ∀ e, Stays R (h e)] : Stays R (catching m h) :=
  hm.handling fun stop => by cases stop <;> infer_instance

instance {h : EStateM Stop σ α} [hm : Stays R m] [hh : Stays R h] : Stays R (catchingTg m h) :=
  hm.handling fun stop => by
    cases stop with
    | throws e => cases e <;> infer_instance
    | _ => infer_instance

instance [hm : Stays R m] : Stays R (inThread m) :=
  hm.handling fun stop => by cases stop <;> infer_instance

end

/-! ### Lists and rows -/

/-- The card of this id is on the list of the user. -/
def World.Lists (w : World) (user : Int) (idCard : Text) : Prop :=
  ∃ u, w.session user = some u ∧ ∃ p ∈ u.pgdbIssues, p.idCard = idCard

/-- No row is new. -/
def FewerRows (s s' : Shared) : Prop := s'.db.issues ⊆ s.db.issues

instance : Std.Refl FewerRows := ⟨fun _ => List.Subset.refl _⟩

instance : IsTrans Shared FewerRows := ⟨fun _ _ _ h h' => List.Subset.trans h' h⟩

/-- What the sessions share may change in any way. -/
def Anything : Shared → Shared → Prop := fun _ _ => True

instance : Std.Refl Anything := ⟨fun _ => trivial⟩

instance : IsTrans Shared Anything := ⟨fun _ _ _ _ _ => trivial⟩

/-- The preorder is about the table of issues, if about anything. -/
class OfTable (S : Shared → Shared → Prop) : Prop where
  of_table : ∀ {s s' : Shared}, s'.table = s.table → S s s'

instance : OfTable Anything := ⟨fun _ => trivial⟩

theorem FewerRows.of_table {s s' : Shared} (h : s'.table = s.table) : FewerRows s s' := by
  have hissues : s'.db.issues = s.db.issues := congrArg Prod.fst h
  intro r hr
  rw [← hissues]
  exact hr

instance : OfTable FewerRows := ⟨FewerRows.of_table⟩

/-- The preorder is about the table of issues and the consumers, if about anything. -/
class OfRegisters (S : Shared → Shared → Prop) : Prop where
  of_registers : ∀ {s s' : Shared}, s'.registers = s.registers → S s s'

instance {S : Shared → Shared → Prop} [OfTable S] : OfRegisters S := ⟨fun h => OfTable.of_table (congrArg Prod.fst h)⟩

/-- A consumer may be added, and the consumers read anew. -/
class OfDispatch (S : Shared → Shared → Prop) : Prop where
  dispatch : ∀ (denv : DispatcherEnv) (user : TgUser),
    Stays S (do addConsumerToDb denv user; reloadConsumersList denv.selectConsumers)

/-- The rows of a card may go. -/
class OfDeletes (S : Shared → Shared → Prop) : Prop where
  delete : ∀ (s : Shared) (idCard : Text), S s {s with db := s.db.deleteIssue idCard}

instance : OfDeletes FewerRows := ⟨fun _ _ _ hr => (List.mem_filter.mp hr).1⟩

instance {α : Type} {S : Shared → Shared → Prop} [OfRegisters S] {m : ServiceM α} [hm : Frames Shared.registers m] :
    Stays S m :=
  .of_frames hm fun _ _ h => OfRegisters.of_registers h

instance (denv : DispatcherEnv) (user : TgUser) : Frames Shared.table (addConsumerToDb denv user) :=
  .addsConsumer inferInstance inferInstance (fun _ _ => rfl) denv

instance {S : Shared → Shared → Prop} [OfTable S] : OfDispatch S where
  dispatch denv user := by
    have hframes : Frames Shared.table (do
        addConsumerToDb denv user
        reloadConsumersList denv.selectConsumers) := inferInstance
    exact .of_frames hframes fun _ _ h => OfTable.of_table h

/-- The three vectors a list is kept in. -/
def UserDispatcher.lists (u : UserDispatcher) : List MostRecentMsgs × List Int × List PgdbIssue :=
  (u.recentMsgs, u.recentMsgIds, u.pgdbIssues)

section
variable (S : Shared → Shared → Prop)

/-- The vectors of the session are as they were. -/
def SameLists (c c' : Chat) : Prop := c'.ud.lists = c.ud.lists ∧ S c.sh c'.sh

/-- The vectors of a session are those it had, or empty. -/
def KeptLists (w w' : World) : Prop :=
  (∀ user u', w'.session user = some u' →
    u'.lists = ([], [], []) ∨ ∃ u, w.session user = some u ∧ u'.lists = u.lists) ∧ S w.sh w'.sh

instance [Std.Refl S] : Std.Refl (SameLists S) := ⟨fun c => ⟨rfl, Std.Refl.refl c.sh⟩⟩

instance [IsTrans Shared S] : IsTrans Chat (SameLists S) :=
  ⟨fun _ _ _ h h' => ⟨h'.1.trans h.1, IsTrans.trans _ _ _ h.2 h'.2⟩⟩

instance [Std.Refl S] : Std.Refl (KeptLists S) :=
  ⟨fun w => ⟨fun _ u hu => .inr ⟨u, hu, rfl⟩, Std.Refl.refl w.sh⟩⟩

instance [IsTrans Shared S] : IsTrans World (KeptLists S) where
  trans w w' w'' h h' := by
    refine ⟨fun user u'' hu'' => ?_, IsTrans.trans _ _ _ h.2 h'.2⟩
    rcases h'.1 user u'' hu'' with hempty | ⟨u', hu', hsame⟩
    · exact .inl hempty
    · rw [hsame]
      exact h.1 user u' hu'

variable {S}

/-- Nothing is new on any list. -/
theorem KeptLists.lists {w w' : World} (h : KeptLists S w w') {user : Int} {k : Text} (hk : w'.Lists user k) :
    w.Lists user k := by
  obtain ⟨u', hu', p, hp, hk⟩ := hk
  rcases h.1 user u' hu' with hempty | ⟨u, hu, hsame⟩
  · have hissues : u'.pgdbIssues = [] := congrArg (fun l => l.2.2) hempty
    rw [hissues] at hp
    cases hp
  · have hissues : u'.pgdbIssues = u.pgdbIssues := congrArg (fun l => l.2.2) hsame
    exact ⟨u, hu, p, hissues ▸ hp, hk⟩

end

/-- A notice to the staff, beside other statements. -/
theorem Stays.besideNotice {S : Shared → Shared → Prop} [Std.Refl S] [IsTrans Shared S] [OfRegisters S] {cfg : Config}
    {ahead : Nat → Nat} {text : Text} {kb : Keyboard} {r : Nat → Sending} {ms : List (ServiceM Unit)}
    (hms : ∀ m ∈ ms, Stays S m) : Stays S (besideThread ahead (noticesToStaff cfg text kb r) ms) := by
  refine ⟨Within.beside (fun t ht => ?_) fun m hm => (hms m hm).within⟩
  obtain ⟨x, -, rfl⟩ := List.mem_map.mp ht
  have hnotice : Stays S (inThread (catchingTg
      (do let _ ← call (.sendMessage (.user x.1) text kb) (r x.2)) (pure ()))) := inferInstance
  exact hnotice.within

section
variable {α : Type} {S : Shared → Shared → Prop} [Std.Refl S]

instance {m : ServiceM α} [hm : Stays S m] : Stays (SameLists S) (service m) :=
  ⟨hm.within.zoom fun _ _ hs => ⟨rfl, hs⟩⟩

instance {m : ServiceM α} [hm : Stays S m] : Stays (KeptLists S) (serviceBot m) :=
  ⟨hm.within.zoom fun _ _ hs => ⟨fun _ u hu => .inr ⟨u, hu, rfl⟩, hs⟩⟩

instance (f : NewTask → NewTask) : Stays (SameLists S) (modifyTask f) :=
  ⟨.writes fun c => ⟨rfl, Std.Refl.refl c.sh⟩⟩

theorem stays_modifySession {f : UserDispatcher → UserDispatcher} (hf : ∀ u, (f u).lists = u.lists) :
    Stays (SameLists S) (modifySession f) :=
  ⟨.writes fun c => ⟨hf c.ud, Std.Refl.refl c.sh⟩⟩

omit [Std.Refl S] in
/-- The sessions of all others are as they were, and the own one has its vectors still. -/
theorem KeptLists.of_at {w w' : World} {c : Chat} {u : UserDispatcher} {me : Int} (hu : w.session me = some u)
    (hat : w'.At me c) (hlists : c.ud.lists = u.lists) (ho : OthersKept me w w') (hsh : S w.sh w'.sh) :
    KeptLists S w w' := by
  refine ⟨fun user v hv => ?_, hsh⟩
  by_cases hme : user = me
  · subst hme
    rw [hat.session, Option.some.injEq] at hv
    exact .inr ⟨u, hu, hv ▸ hlists⟩
  · rw [ho.session hme] at hv
    exact .inr ⟨v, hv, rfl⟩

/-- A session found has the vectors it had. -/
instance (now id : Int) : Stays (KeptLists S) (selectSession now id) where
  within w := by
    refine wp_selectSession _ _ (fun _ => ?_) fun u hu w' hat ho => ?_
    · exact ⟨fun _ v hv => .inr ⟨v, hv, rfl⟩, Std.Refl.refl w.sh⟩
    · refine .of_at hu hat rfl ho ?_
      obtain ⟨-, -, -, hsh⟩ := hat
      rw [hsh]
      exact Std.Refl.refl w.sh

theorem session_of_deref {w : World} {p : SessionPtr} {u : UserDispatcher} (h : w.mSessions.deref p = some u) :
    w.session p.tgId = some u := by
  rw [SessionStore.deref] at h
  rw [World.session, SessionStore.session]
  cases hslot : w.mSessions.lookup p.tgId with
  | none =>
    rw [hslot] at h
    cases h
  | some slot =>
    rw [hslot] at h
    dsimp only at h
    split at h
    · exact h
    · cases h

theorem session_of_current {w : World} {p : SessionPtr} {u : UserDispatcher} (h : w.current = some (p, u)) :
    w.session p.tgId = some u := by
  unfold World.current at h
  split at h
  · cases h
  · obtain ⟨v, hv, hpair⟩ := Option.map_eq_some_iff.mp h
    obtain ⟨rfl, rfl⟩ := Prod.mk.inj hpair
    exact session_of_deref hv

/-- What `uD` points to is one of the sessions. -/
instance {m : ChatM α} [hm : Stays (SameLists S) m] : Stays (KeptLists S) (onSession m) where
  within w := by
    have hrun := hm.within
    unfold wp
    rw [run_onSession]
    cases hcur : w.current with
    | none => exact Std.Refl.refl (r := KeptLists S) w
    | some found =>
      obtain ⟨p, u⟩ := found
      have hput (c' : Chat) (h : SameLists S ⟨u, w.sh⟩ c') : KeptLists S w (w.put p c') := by
        refine ⟨fun user v hv => ?_, h.2⟩
        by_cases hid : user = p.tgId
        · subst hid
          have hself : (w.put p c').session p.tgId = some c'.ud :=
            congrArg (Option.map Slot.session) (SessionStore.lookup_put _)
          rw [hself, Option.some.injEq] at hv
          exact .inr ⟨u, session_of_current hcur, hv ▸ h.1⟩
        · have hother : (w.put p c').session user = w.session user :=
            congrArg (Option.map Slot.session) (SessionStore.lookup_put_ne hid _)
          rw [hother] at hv
          exact .inr ⟨v, hv, rfl⟩
      have hchat := hrun ⟨u, w.sh⟩
      unfold wp at hchat
      dsimp only
      cases hm : m.run ⟨u, w.sh⟩ with
      | ok a c' =>
        rw [hm] at hchat
        exact hput c' hchat
      | error e c' =>
        rw [hm] at hchat
        exact hput c' hchat

end

/-! ### Messages and commands -/

section
variable {S : Shared → Shared → Prop} [Std.Refl S] [IsTrans Shared S]

/-- An eviction and a new session add to no list. -/
theorem sessionDispatcher_stays (cfg : Config) (denv : DispatcherEnv) (now : Int) (m : Message)
    [hdispatch : OfDispatch S] : Stays (KeptLists S) (sessionDispatcher cfg denv now m) := by
  have hknown := hdispatch.dispatch denv m.from_
  have hdue : Stays (KeptLists S) (modify fun w => {w with mLastSessionsCleanup := now} : BotM Unit) :=
    ⟨.writes fun w => ⟨fun _ u hu => .inr ⟨u, hu, rfl⟩, Std.Refl.refl w.sh⟩⟩
  have hevict : Stays (KeptLists S) (modify fun w : World =>
      {w with mSessions := (w.mSessions.evictIdle now (sessionTtl cfg)).2, uD := none} : BotM Unit) := by
    refine ⟨.writes fun w => ⟨fun user u hu => ?_, Std.Refl.refl w.sh⟩⟩
    have hsession := SessionStore.session_evictIdle w.mSessions now (sessionTtl cfg) user
    exact .inr ⟨u, (Option.filter_eq_some_iff.mp (hsession.symm.trans hu)).1, rfl⟩
  have hcreate (w : World) : KeptLists S w {w with
      uD := some (w.mSessions.create m.from_.id m.from_.username m.from_.firstName now).1,
      mSessions := (w.mSessions.create m.from_.id m.from_.username m.from_.firstName now).2} := by
    refine ⟨fun user u hu => ?_, Std.Refl.refl w.sh⟩
    by_cases hid : user = m.from_.id
    · subst hid
      cases hslot : w.mSessions.lookup m.from_.id with
      | none =>
        simp only [World.session, SessionStore.session, SessionStore.create, SessionStore.find_of_none hslot,
          SessionStore.lookup, AList.lookup_insert, Option.map_some, Option.some.injEq] at hu
        exact .inl (hu ▸ rfl)
      | some slot =>
        simp only [World.session, SessionStore.session, SessionStore.create, SessionStore.find_of_lookup hslot,
          SessionStore.lookup_put, Option.map_some, Option.some.injEq] at hu
        exact .inr ⟨slot.session, congrArg (Option.map Slot.session) hslot, hu ▸ rfl⟩
    · have hother := SessionStore.lookup_create_ne (s := w.mSessions) hid m.from_.username m.from_.firstName now
      exact .inr ⟨u, (congrArg (Option.map Slot.session) hother).symm.trans hu, rfl⟩
  unfold sessionDispatcher evictIdleSessions
  refine Stays.bind inferInstance fun w => Stays.bind inferInstance fun _ => Stays.bind inferInstance fun _ =>
    Stays.bind inferInstance fun found => ?_
  have hnew : Stays (KeptLists S) (modify fun w : World => {w with
      uD := some (w.mSessions.create m.from_.id m.from_.username m.from_.firstName now).1,
      mSessions := (w.mSessions.create m.from_.id m.from_.username m.from_.firstName now).2} : BotM Unit) :=
    ⟨.writes hcreate⟩
  exact inferInstanceAs (Stays (KeptLists S) (guarded (found = false) (modify _)))

end

instance {α : Type} {m : ServiceM α} : Stays Anything m where
  within s := by
    unfold wp
    cases m.run s <;> trivial

section
variable {S : Shared → Shared → Prop} [Std.Refl S] [IsTrans Shared S] [OfRegisters S] {cfg : Config}
  {env : SmallTalkEnv} {m : Message}

instance (cenv : CommandEnv) (prompt : Text) (kb : Keyboard) : Stays (SameLists S) (sendMenu cenv m prompt kb) := by
  have hclicked (clicked : Sent) :
      Stays (SameLists S) (modifySession fun u => {u with clickedMsgId := clicked.messageId}) :=
    stays_modifySession fun _ => rfl
  unfold sendMenu
  infer_instance

instance (cenv : CommandEnv) : Stays (SameLists S) (startMenu cfg cenv m) := by
  unfold startMenu
  infer_instance

instance (cenv : CommandEnv) (now : Int) (name : Command) : Stays (KeptLists S) (onCommand cfg cenv now m name) := by
  cases name <;> simp only [onCommand, onStartCommand] <;> infer_instance

/-- A task that is filed touches the vectors of the session in nothing. -/
instance (cenv : CreateIssueEnv) : Stays (SameLists Anything) (createNewIssue cfg cenv m) where
  within c := by
    have hmsgs : wp (createNewIssue cfg cenv m)
        (fun _ d => d.ud.recentMsgs = c.ud.recentMsgs ∧ d.ud.recentMsgIds = c.ud.recentMsgIds)
        (fun _ d => d.ud.recentMsgs = c.ud.recentMsgs ∧ d.ud.recentMsgIds = c.ud.recentMsgIds) c := by
      simp only [createNewIssue, wp_bind, wp_get, wp_service, wp_log]
      refine wp_mono (submitTask_marked cenv m _) (fun _ d hd => ?_) fun _ d hd => ?_
      · simp only [Chat.mark, Prod.mk.injEq] at hd
        exact hd.2.2
      · simp only [Chat.mark, Prod.mk.injEq] at hd
        exact hd.2.2.2
    have hsame {d : Chat} (hfiled : Filed cenv c d)
        (hd : d.ud.recentMsgs = c.ud.recentMsgs ∧ d.ud.recentMsgIds = c.ud.recentMsgIds) :
        SameLists Anything c d := by
      refine ⟨?_, trivial⟩
      rw [UserDispatcher.lists, hd.1, hd.2, hfiled.list]
      rfl
    exact wp_mono (wp_and (createNewIssue_filed cfg cenv m c) hmsgs) (fun _ _ h => hsame h.1 h.2)
      fun _ _ h => hsame h.1 h.2

instance (question : Question) (receiver : Int) (text : Text) :
    Stays (SameLists S) (question.ask env receiver text) := by
  unfold Question.ask
  infer_instance

instance (path uuid : Text) (r : Answer Download) : Stays (SameLists S) (receiveFile cfg path uuid r) := by
  unfold receiveFile
  infer_instance

instance (penv : PhotosEnv) : Stays (SameLists S) (receivePhotos cfg penv m) := by
  have hdocument (document : Option Text) : Stays (SameLists S) (match document with
      | none => pure ()
      | some fileId => do
        let filePath ← service (call (.getFile fileId) penv.documentPath)
        modifyTask fun t => {t with vDocuIds := t.vDocuIds ++ [fileId ++ of "\n"]}
        receiveFile cfg filePath penv.documentUuid penv.document) := by
    cases document <;> infer_instance
  unfold receivePhotos
  infer_instance

instance : Stays (SameLists S) (developerHostCommand cfg env m) := by
  unfold developerHostCommand
  refine Stays.bind inferInstance fun output => ?_
  cases output <;> infer_instance

/-- No answer to a question, and no service step, touches the list; nor the table, if it files nothing. -/
theorem answerStep_stays (cfg : Config) (env : SmallTalkEnv) (m : Message) {stat : Nat}
    (hfiles : stat = sharedSeparateTeklaFromBimStep6 ∨ stat = sharedFinalStep7 →
      Stays (SameLists S) (createNewIssue cfg env.createIssue m)) :
    Stays (SameLists S) (answerStep cfg env m stat) := by
  unfold answerStep
  split
  case h_1 =>
    have hbeside (text : Text) (kb : Keyboard) : Stays S (besideThread env.ahead (noticesToStaff cfg text kb env.staff)
        [do let _ ← call (.sendMessage (.user m.chat.id) (of "Ожидайте одобрения")) env.prompt]) :=
      .besideNotice (List.forall_mem_singleton.mpr inferInstance)
    unfold masterKeyFirstname
    infer_instance
  case h_3 =>
    have hrow (row : ContractorRow) := @frames_sql (.insertContractor row) env.insertContractor
      (fun db => {db with contractors := db.contractors ++ [row]}) fun _ => ⟨rfl, rfl, rfl⟩
    unfold staffAddContractor
    dsimp only
    split <;> infer_instance
  case h_4 =>
    unfold developerMsgAsBot
    infer_instance
  case h_6 =>
    have hversion := @frames_sql (.setMsiVersion m.text) env.setMsiVersion
      (fun db => {db with msiActualVersion := m.text}) fun _ => ⟨rfl, rfl, rfl⟩
    unfold staffSetMsiVersion
    infer_instance
  case h_7 =>
    have hfiled := hfiles (.inl rfl)
    unfold sharedSeparateTeklaFromBim
    infer_instance
  case h_8 =>
    have hfiled := hfiles (.inr rfl)
    infer_instance
  case h_13 =>
    unfold sharedFirstname
    infer_instance
  all_goals infer_instance

theorem handleUpdate_stays_command [OfDispatch S] {uenv : UpdateEnv} {name : Command} :
    Stays (KeptLists S) (handleUpdate cfg uenv (.command name m)) := by
  have hdispatch := sessionDispatcher_stays (S := S) cfg uenv.dispatcher uenv.now m
  unfold handleUpdate
  infer_instance

/-- A message or a command puts nothing on a list. -/
theorem handleUpdate_stays {uenv : UpdateEnv} {x : Update} (hx : ∀ q, x ≠ .callback q) :
    Stays (KeptLists Anything) (handleUpdate cfg uenv x) := by
  cases x with
  | callback q => exact absurd rfl (hx q)
  | command name m => exact handleUpdate_stays_command
  | message m =>
    have hdispatch := sessionDispatcher_stays (S := Anything) cfg uenv.dispatcher uenv.now m
    have hstep (stat : Nat) : Stays (SameLists Anything) (answerStep cfg uenv.smallTalk m stat) :=
      answerStep_stays cfg uenv.smallTalk m fun _ => inferInstance
    unfold handleUpdate handleSmallTalk smallTalk
    infer_instance

end

/-! ### Clicks -/

section
variable {α : Type} {S : Shared → Shared → Prop} [Std.Refl S] [IsTrans Shared S] [OfRegisters S]
variable {cfg : Config} {env : CallbackEnv} {q : CallbackQuery} {now : Int}

instance [OfDeletes S] (idCard : Text) (r : Answer Bool) : Stays S (deleteIssueFromDb idCard r) := by
  have hcall : Stays S (call (.deleteIssue idCard) r) := inferInstance
  have hwrite : Stays S (modify fun s : Shared => {s with db := s.db.deleteIssue idCard} : ServiceM Unit) :=
    ⟨.writes fun s => OfDeletes.delete s idCard⟩
  unfold deleteIssueFromDb sql
  infer_instance

instance (text : Text) (kb : Keyboard) (parseMode : Text) (r : Sending) :
    Stays (SameLists S) (say q text kb parseMode r) := by
  unfold say
  infer_instance

instance {m : ChatM Unit} [Stays (SameLists S) m] : Stays (SameLists S) (ifClicked q m) := by
  unfold ifClicked
  infer_instance

instance (prompt type : Text) (stat : Nat) : Stays (SameLists S) (openService env q prompt type stat) := by
  unfold openService
  infer_instance

instance (f : NewTask → NewTask) : Stays (SameLists S) (spendMenu q f) := by
  have hspend : Stays (SameLists S) (modifySession fun u => {u with clickedMsgId := 0, jiraTask := f {}}) :=
    stays_modifySession fun _ => rfl
  unfold spendMenu
  infer_instance

instance (prompt parseMode : Text) (stat : Nat) :
    Stays (KeptLists S) (askFirst env q now prompt parseMode stat) := by
  unfold askFirst
  infer_instance

instance (f : NewTask → NewTask) {ask : BotM Unit} [Stays (KeptLists S) ask] :
    Stays (KeptLists S) (openDialog q now f ask) := by
  unfold openDialog
  infer_instance

instance (issue : PgdbIssue) : Stays (SameLists S) (onStartSolving env q issue) := by
  have hclicked : Stays (SameLists S) (modifySession fun u => {u with clickedMsgId := q.messageId}) :=
    stays_modifySession fun _ => rfl
  unfold onStartSolving
  infer_instance

/-- A notice to the staff, by a thread. -/
instance (text : Text) (kb : Keyboard) (r : Nat → Sending) :
    Stays (SameLists S) (inThread (service (sendMsgToStaff cfg text kb r))) := inferInstance

instance [OfDeletes S] (issue : PgdbIssue) : Stays (SameLists S) (onTaskClosing cfg env q issue) := by
  have hclicked : Stays (SameLists S) (modifySession fun u => {u with clickedMsgId := 0}) :=
    stays_modifySession fun _ => rfl
  have hbeside : Stays S (besideThread env.ahead (noticesToStaff cfg (closingNotice issue) .goDashboard env.staff)
      [ archivingCard issue.idCard env.archive,
        do let _ ← deleteIssueFromDb issue.idCard env.deleteIssue ]) :=
    .besideNotice (List.forall_mem_cons.mpr ⟨inferInstance, List.forall_mem_singleton.mpr inferInstance⟩)
  have hrest : Stays (SameLists S) (service (besideThread env.ahead
      (noticesToStaff cfg (closingNotice issue) .goDashboard env.staff)
      [ archivingCard issue.idCard env.archive,
        do let _ ← deleteIssueFromDb issue.idCard env.deleteIssue ])) := inferInstance
  unfold onTaskClosing
  infer_instance

instance (issue : PgdbIssue) : Stays (KeptLists S) (onMorePhotosCommand env q now issue) := by
  unfold onMorePhotosCommand
  infer_instance

/-- No click but that for the list puts anything on it, and only one that ends a task deletes rows. -/
theorem pressButton_stays (issue : Option PgdbIssue) {b : Button} (h : b ≠ .myTasks)
    (hdeletes : b = .taskClosing → OfDeletes S) : Stays (KeptLists S) (pressButton cfg env q now issue b) := by
  cases b with
  | myTasks => exact absurd rfl h
  | taskClosing =>
    have hdeletes : OfDeletes S := hdeletes rfl
    cases issue <;> simp only [pressButton, Option.elim] <;> infer_instance
  | startSolving | morePhotos =>
    cases issue <;> simp only [pressButton, Option.elim] <;> infer_instance
  | _ =>
    simp only [pressButton, onReqMasterKey, onMsgAsBot, onMsgToGpt, onRunCommand, onRebootHost,
      onAddNewContractor, onSetNewMsiVersion, onSendFile, onNoMorePhotos, onTeklaEnterMenu,
      onTeklaGeneralIssue, onTeklaBack, onNewTask, onNewFamily, onNewTaskQuery, onNewFamilyQuery]
    infer_instance

end

/-! ### Decisions about keys -/

section
variable {S : Shared → Shared → Prop} [Std.Refl S] [IsTrans Shared S] [OfRegisters S]
variable {cfg : Config} {kenv : KeyEnv} {q : CallbackQuery} {now requester : Int}

instance (u : UserDispatcher) : Frames Shared.registers (insertRevitKeyToDb kenv u) := by
  have hrow (found : Option MasterKeyRow) (row : MasterKeyRow) : Frames Shared.registers (match found with
      | some row => pure row.masterKey
      | none => do
        let inserted ← sql (.insertMasterKey row) kenv.insertKey fun db =>
          {db with masterKeys := db.masterKeys ++ [row]}
        if inserted then do
          let _ ← call .commit kenv.commit
          pure kenv.generatedKey
        else pure []) := by
    have hinsert := @frames_sql (.insertMasterKey row) kenv.insertKey
      (fun db => {db with masterKeys := db.masterKeys ++ [row]}) fun _ => ⟨rfl, rfl, rfl⟩
    cases found <;> infer_instance
  unfold insertRevitKeyToDb
  infer_instance

instance : Stays (SameLists S) (approveKey cfg kenv q requester) := by
  have hkey (u : UserDispatcher) : Stays (SameLists S) (service (insertRevitKeyToDb kenv u)) := inferInstance
  have hstaff (text : Text) :
      Stays (SameLists S) (inThread (service (sendMsgToStaff cfg text .none kenv.staff))) := inferInstance
  unfold approveKey clearRequest
  infer_instance

instance : Stays (SameLists S) (rejectKey cfg kenv q requester) := by
  unfold rejectKey clearRequest
  infer_instance

instance : Stays (KeptLists S) (lookUpRequester cfg kenv q requester now) := by
  unfold lookUpRequester
  infer_instance

theorem keyDecision_stays : Stays (KeptLists S) (keyDecision cfg kenv q now) := by
  unfold keyDecision
  cases requesterId q.data <;> infer_instance

instance : Stays (SameLists S) (clickedIssue q) := by
  unfold clickedIssue
  refine Stays.bind inferInstance fun c => ?_
  split <;> infer_instance

/-- A click puts nothing on a list, but for that on `my_tasks`; it adds no row, and deletes rows only when it
ends a task. -/
theorem onCallbackQuery_stays_but {env : CallbackEnv} (h : buttonOf q.data ≠ some .myTasks)
    (hdeletes : buttonOf q.data = some .taskClosing → OfDeletes S) :
    Stays (KeptLists S) (onCallbackQuery cfg env q now) := by
  have hkey : Stays (KeptLists S) (keyDecision cfg env.key q now) := keyDecision_stays
  have hpress (issue : Option PgdbIssue) : Stays (KeptLists S)
      ((buttonOf q.data).elim (pure ()) (pressButton cfg env q now issue)) := by
    cases hb : buttonOf q.data with
    | none => exact inferInstanceAs (Stays (KeptLists S) (pure ()))
    | some b => exact pressButton_stays issue (fun hn => h (hn ▸ hb)) fun hn => hdeletes (hn ▸ hb)
  unfold onCallbackQuery ownCallback
  infer_instance

theorem onCallbackQuery_stays [OfDeletes S] {env : CallbackEnv} (h : buttonOf q.data ≠ some .myTasks) :
    Stays (KeptLists S) (onCallbackQuery cfg env q now) :=
  onCallbackQuery_stays_but h fun _ => inferInstance

end

end Chanserv
