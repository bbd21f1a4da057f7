import Chanserv.Bot.Requests
import Chanserv.Bot.Stays

/-! The table of keys, between decisions.

All handlers but that of a decision leave the table as it is, and every session
with the id it was made for. -/
namespace Chanserv
open Text Program

/-- Every session has the id of its user. -/
def World.Owned (w : World) : Prop := ∀ id u, w.session id = some u → u.chatUserTgId = id

/-- No key is new, none is gone, and sessions are still their users'. -/
def SameKeys (w w' : World) : Prop := (w.Owned → w'.Owned) ∧ w'.sh.keys = w.sh.keys

instance : Std.Refl SameKeys := ⟨fun _ => ⟨fun h => h, rfl⟩⟩

instance : IsTrans World SameKeys := ⟨fun _ _ _ h h' => ⟨fun hw => h'.1 (h.1 hw), h'.2.trans h.2⟩⟩

/-- Another session in the place of one's own. -/
theorem World.Owned.at {w w' : World} {me : Int} {c : Chat} (hw : w.Owned) (hat : w'.At me c)
    (ho : OthersKept me w w') (hc : c.ud.chatUserTgId = me) : w'.Owned := by
  intro id u hu
  by_cases hid : id = me
  · subst hid
    rw [hat.session, Option.some.injEq] at hu
    exact hu ▸ hc
  · exact hw id u ((ho.session hid).symm.trans hu)

section
variable {α : Type} {cfg : Config}

instance (now id : Int) : Stays SameKeys (selectSession now id) where
  within w := by
    refine wp_selectSession _ _ (fun _ => ⟨fun h => h, rfl⟩) fun u hu w' hat ho => ⟨fun hw => ?_, ?_⟩
    · exact hw.at hat ho (hw id u hu)
    · obtain ⟨-, -, -, hsh⟩ := hat
      exact congrArg Shared.keys hsh

instance {m : ServiceM α} [hm : Frames Shared.keys m] : Stays SameKeys (serviceBot m) where
  within w := by
    rw [serviceBot, wp_zoom]
    exact wp_mono (hm.keeps w.sh) (fun _ _ hs => ⟨fun h => h, hs⟩) fun _ _ hs => ⟨fun h => h, hs.2⟩

instance {m : ChatM α} [hm : Frames Chat.owned m] : Stays SameKeys (onSession m) where
  within w := by
    have hrun := hm.keeps
    unfold wp
    rw [run_onSession]
    cases hcur : w.current with
    | none => exact Std.Refl.refl (r := SameKeys) w
    | some found =>
      obtain ⟨p, u⟩ := found
      have hput (c' : Chat) (h : c'.owned = (⟨u, w.sh⟩ : Chat).owned) : SameKeys w (w.put p c') := by
        refine ⟨fun hw id v hv => ?_, congrArg Prod.snd h⟩
        by_cases hid : id = p.tgId
        · subst hid
          have hself : (w.put p c').session p.tgId = some c'.ud :=
            congrArg (Option.map Slot.session) (SessionStore.lookup_put _)
          rw [hself, Option.some.injEq] at hv
          rw [← hv]
          exact (congrArg Prod.fst h).trans (hw p.tgId u (session_of_current hcur))
        · have hother : (w.put p c').session id = w.session id :=
            congrArg (Option.map Slot.session) (SessionStore.lookup_put_ne hid _)
          exact hw id v (hother.symm.trans hv)
      have hchat := hrun ⟨u, w.sh⟩
      unfold wp at hchat
      dsimp only
      cases hm : m.run ⟨u, w.sh⟩ with
      | ok a c' =>
        rw [hm] at hchat
        exact hput c' hchat
      | error e c' =>
        rw [hm] at hchat
        exact hput c' hchat.2

/-! ### Messages and commands -/

/-- An evicted session is nobody's, a new one is its user's. -/
instance (denv : DispatcherEnv) (now : Int) (m : Message) : Stays SameKeys (sessionDispatcher cfg denv now m) := by
  have hdue : Stays SameKeys (modify fun w => {w with mLastSessionsCleanup := now} : BotM Unit) :=
    ⟨.writes fun _ => ⟨fun h => h, rfl⟩⟩
  have hevict : Stays SameKeys (modify fun w : World =>
      {w with mSessions := (w.mSessions.evictIdle now (sessionTtl cfg)).2, uD := none} : BotM Unit) := by
    refine ⟨.writes fun w => ⟨fun hw id u hu => ?_, rfl⟩⟩
    have hsession := SessionStore.session_evictIdle w.mSessions now (sessionTtl cfg) id
    exact hw id u (Option.filter_eq_some_iff.mp (hsession.symm.trans hu)).1
  have hcreate (w : World) (hw : w.Owned) : World.Owned {w with
      uD := some (w.mSessions.create m.from_.id m.from_.username m.from_.firstName now).1,
      mSessions := (w.mSessions.create m.from_.id m.from_.username m.from_.firstName now).2} := by
    intro id u hu
    by_cases hid : id = m.from_.id
    · subst hid
      cases hslot : w.mSessions.lookup m.from_.id with
      | none =>
        simp only [World.session, SessionStore.session, SessionStore.create, SessionStore.find_of_none hslot,
          SessionStore.lookup, AList.lookup_insert, Option.map_some, Option.some.injEq] at hu
        rw [← hu]
      | some slot =>
        simp only [World.session, SessionStore.session, SessionStore.create, SessionStore.find_of_lookup hslot,
          SessionStore.lookup_put, Option.map_some, Option.some.injEq] at hu
        rw [← hu]
        exact hw _ slot.session (congrArg (Option.map Slot.session) hslot)
    · have hother := SessionStore.lookup_create_ne (s := w.mSessions) hid m.from_.username m.from_.firstName now
      exact hw id u ((congrArg (Option.map Slot.session) hother).symm.trans hu)
  unfold sessionDispatcher evictIdleSessions
  refine Stays.bind inferInstance fun w => Stays.bind inferInstance fun _ => Stays.bind inferInstance fun _ =>
    Stays.bind inferInstance fun found => ?_
  have hnew {f : World → World} (hf : ∀ w, SameKeys w (f w)) : Stays SameKeys (modify f : BotM Unit) :=
    ⟨.writes hf⟩
  have hstays := hnew fun w => ⟨hcreate w, rfl⟩
  exact inferInstanceAs (Stays SameKeys (guarded (found = false) (modify _)))

instance (cenv : CommandEnv) (now : Int) (m : Message) (name : Command) :
    Stays SameKeys (onCommand cfg cenv now m name) := by
  cases name <;> simp only [onCommand, onStartCommand] <;> infer_instance

instance (env : SmallTalkEnv) (m : Message) (now : Int) : Stays SameKeys (handleSmallTalk cfg env m now) := by
  unfold handleSmallTalk
  infer_instance

end

/-! ### Clicks -/

section
variable {cfg : Config} {env : CallbackEnv} {q : CallbackQuery} {now : Int}

instance (prompt parseMode : Text) (stat : Nat) : Stays SameKeys (askFirst env q now prompt parseMode stat) := by
  unfold askFirst
  infer_instance

instance (f : NewTask → NewTask) {ask : BotM Unit} [Stays SameKeys ask] : Stays SameKeys (openDialog q now f ask) := by
  unfold openDialog
  infer_instance

instance (issue : PgdbIssue) : Stays SameKeys (onMorePhotosCommand env q now issue) := by
  unfold onMorePhotosCommand
  infer_instance

instance : Stays SameKeys (onMyTasks cfg env q now) := by
  unfold onMyTasks getMyIssues
  infer_instance

instance (issue : Option PgdbIssue) (b : Button) : Stays SameKeys (pressButton cfg env q now issue b) := by
  cases b with
  | startSolving | morePhotos | taskClosing =>
    cases issue <;> simp only [pressButton, Option.elim] <;> infer_instance
  | _ =>
    simp only [pressButton, onMsgAsBot, onMsgToGpt, onRunCommand, onRebootHost, onAddNewContractor,
      onSetNewMsiVersion, onNewTask, onNewFamily, onNewTaskQuery, onNewFamilyQuery]
    infer_instance

instance : Stays SameKeys (ownCallback cfg env q now) := by
  have hpress (issue : Option PgdbIssue) : Stays SameKeys
      ((buttonOf q.data).elim (pure ()) (pressButton cfg env q now issue)) := by
    cases hb : buttonOf q.data with
    | none => exact inferInstanceAs (Stays SameKeys (pure ()))
    | some b => exact inferInstanceAs (Stays SameKeys (pressButton cfg env q now issue b))
  unfold ownCallback
  infer_instance

end

end Chanserv
