import Chanserv.Bot.Run

/-! Programs that do not end the process.

An exception of a handler is caught by the main loop. What ends the process is
an exception in a thread, and a read past the end of a list; a program is calm
when it does neither, whatever its calls answer. (That `uD` is never followed
when it is null is shown elsewhere.) Programs made of calls and writes alone are
calm by their shape, and instances see it. -/
namespace Chanserv
open Text Program

/-- Not `std::terminate`, and no read past the end. -/
@[simp] def Stop.tame : Stop → Bool
  | .throws _ | .badAccess => true
  | .terminate | .outOfRange => false

theorem Stop.tame_of_alive {stop : Stop} (h : stop.fatal = false) : stop.tame = true := by
  cases stop with
  | throws => rfl
  | _ => cases h

section
variable {σ α β ι : Type}

class Calm (m : EStateM Stop σ α) : Prop where
  tame : ∀ s, wp m (fun _ _ => True) (fun stop _ => stop.tame = true) s

/-- The run ends normally. -/
def Completes (m : EStateM Stop σ α) (s : σ) : Prop := wp m (fun _ _ => True) (fun _ _ => False) s

variable {m : EStateM Stop σ α} {s : σ}

instance (a : α) : Calm (pure a : EStateM Stop σ α) := ⟨fun _ => trivial⟩

instance (e : Exn) : Calm (throw (.throws e) : EStateM Stop σ α) := ⟨fun _ => rfl⟩

instance : Calm (get : EStateM Stop σ σ) := ⟨fun _ => trivial⟩

instance (f : σ → σ) : Calm (modify f : EStateM Stop σ PUnit) := ⟨fun _ => trivial⟩

instance {f : α → EStateM Stop σ β} [hm : Calm m] [hf : ∀ a, Calm (f a)] : Calm (m >>= f) where
  tame s := by
    rw [wp_bind]
    exact wp_mono (hm.tame s) (fun a s' _ => (hf a).tame s') fun _ _ => id

instance {c : Prop} [Decidable c] {m : EStateM Stop σ Unit} [hm : Calm m] : Calm (guarded c m) where
  tame s := (wp_guarded c).mpr ⟨fun _ => hm.tame s, fun _ => trivial⟩

instance {c : Prop} [Decidable c] {m' : EStateM Stop σ α} [hm : Calm m] [hm' : Calm m'] :
    Calm (if c then m else m') where
  tame s := (wp_ite c m').mpr ⟨fun _ => hm.tame s, fun _ => hm'.tame s⟩

instance {is : List ι} {f : ι → EStateM Stop σ Unit} [hf : ∀ i, Calm (f i)] : Calm (forEach is f) where
  tame _ := wp_forEach (I := fun _ => True) (fun i _ s _ => (hf i).tame s) trivial

instance {h : Exn → EStateM Stop σ α} [hm : Calm m] [hh : ∀ e, Calm (h e)] : Calm (catching m h) where
  tame s := by
    rw [wp_catching]
    refine wp_mono (hm.tame s) (fun _ _ => id) fun stop s' hstop => ?_
    cases stop with
    | throws e => exact (hh e).tame s'
    | _ => exact hstop

instance {h : EStateM Stop σ α} [hm : Calm m] [hh : Calm h] : Calm (catchingTg m h) where
  tame s := by
    rw [wp_catchingTg]
    refine wp_mono (hm.tame s) (fun _ _ => id) fun stop s' hstop => ?_
    cases stop with
    | throws e =>
      cases e with
      | tgException => exact hh.tame s'
      | stdException => exact hstop
    | _ => exact hstop

/-- A thread whose body completes is calm there. -/
theorem Completes.inThread (h : Completes m s) :
    wp (inThread m) (fun _ _ => True) (fun stop _ => stop.tame = true) s := by
  rw [wp_inThread]
  exact wp_mono h (fun _ _ => id) fun _ _ => False.elim

end

section
variable {α : Type}

instance (e : Effect) : Calm (log e) := ⟨fun _ => trivial⟩

instance (e : Effect) (r : Answer α) : Calm (call e r) where
  tame _ := (wp_call e r).mpr ⟨fun _ _ => trivial, fun _ _ => rfl⟩

instance (e : Effect) (r : Answer Bool) (f : Db → Db) : Calm (sql e r f) := by
  unfold sql
  infer_instance

instance (r : Answer Bool) (rows : Db → List α) : Calm (select r rows) := by
  unfold select
  infer_instance

instance {m : ServiceM α} [hm : Calm m] : Calm (service m) where
  tame c := by
    rw [wp_service]
    exact hm.tame c.sh

instance {m : ServiceM α} [hm : Calm m] : Calm (serviceBot m) where
  tame w := by
    rw [serviceBot, wp_zoom]
    exact hm.tame w.sh

instance (f : UserDispatcher → UserDispatcher) : Calm (modifySession f) := ⟨fun _ => trivial⟩

instance (f : NewTask → NewTask) : Calm (modifyTask f) := ⟨fun _ => trivial⟩

instance (now id : Int) : Calm (selectSession now id) := by
  unfold selectSession
  infer_instance

instance {m : ChatM α} [hm : Calm m] : Calm (onSession m) where
  tame w := by
    unfold wp
    rw [run_onSession]
    cases w.current with
    | none => rfl
    | some p =>
      have h := hm.tame ⟨p.2, w.sh⟩
      unfold wp at h
      dsimp only
      cases hrun : m.run ⟨p.2, w.sh⟩ with
      | ok a c => trivial
      | error e c =>
        rw [hrun] at h
        exact h

end

/-! ### Handlers without threads -/

section
variable {cfg : Config}

instance {α : Type} : Calm (throwStd : ServiceM α) := by
  unfold throwStd
  infer_instance

instance (info : Text) (kb : Keyboard) (r : Sending) : Calm (sendMsgToSupport cfg info kb r) := by
  unfold sendMsgToSupport
  infer_instance

instance (r : Answer Bool) : Calm (reloadConsumersList r) := by
  unfold reloadConsumersList
  infer_instance

instance (r : Answer Bool) : Calm (reloadContractorsList r) := by
  unfold reloadContractorsList
  infer_instance

instance (env : DispatcherEnv) (now : Int) (m : Message) : Calm (sessionDispatcher cfg env now m) := by
  unfold sessionDispatcher addConsumerToDb evictIdleSessions
  infer_instance

instance (env : CommandEnv) (m : Message) (prompt : Text) (kb : Keyboard) :
    Calm (sendMenu env m prompt kb) := by
  unfold sendMenu
  infer_instance

instance (env : CommandEnv) (m : Message) : Calm (startMenu cfg env m) := by
  unfold startMenu
  infer_instance

instance (env : CommandEnv) (now : Int) (m : Message) (name : Command) :
    Calm (onCommand cfg env now m name) := by
  cases name <;> simp only [onCommand, onStartCommand] <;> infer_instance

instance (question : Question) (env : SmallTalkEnv) (receiver : Int) (text : Text) :
    Calm (question.ask env receiver text) := by
  unfold Question.ask
  infer_instance

instance (env : SmallTalkEnv) (m : Message) : Calm (staffAddContractor env m) := by
  unfold staffAddContractor
  dsimp only
  split <;> infer_instance

instance (env : SmallTalkEnv) (m : Message) : Calm (developerMsgAsBot env m) := by
  unfold developerMsgAsBot
  infer_instance

instance (env : SmallTalkEnv) (m : Message) : Calm (developerHostCommand cfg env m) := by
  unfold developerHostCommand
  have hreport (output : CommandOutput) : Calm (match output with
      | .started chunks => service (sendMsgToSupport cfg (readFromCli chunks) .developer env.prompt)
      | .notStarted stderr => service (sendMsgToSupport cfg (of "Ошибка выполнения команды " ++ stderr)
          .developer env.prompt)) := by
    cases output <;> infer_instance
  infer_instance

instance (env : SmallTalkEnv) (m : Message) : Calm (staffSetMsiVersion env m) := by
  unfold staffSetMsiVersion
  infer_instance

instance (idCard : Text) (r : Answer Bool) : Calm (deleteIssueFromDb idCard r) := by
  unfold deleteIssueFromDb
  infer_instance

instance (card : Text) (r : Answer Unit) : Calm (archivingCard card r) := by
  unfold archivingCard
  infer_instance

instance (card color : Text) (r : Answer Unit) : Calm (changeCardColor card color r) := by
  unfold changeCardColor
  infer_instance

end

section
variable {cfg : Config} {env : CallbackEnv} {q : CallbackQuery} {now : Int}

instance (text : Text) (kb : Keyboard) (parseMode : Text) (r : Sending) :
    Calm (say q text kb parseMode r) := by
  unfold say
  infer_instance

instance {m : ChatM Unit} [Calm m] : Calm (ifClicked q m) := by
  unfold ifClicked
  infer_instance

instance (prompt type : Text) (stat : Nat) : Calm (openService env q prompt type stat) := by
  unfold openService
  infer_instance

instance (f : NewTask → NewTask) : Calm (spendMenu q f) := by
  unfold spendMenu
  infer_instance

instance (prompt parseMode : Text) (stat : Nat) : Calm (askFirst env q now prompt parseMode stat) := by
  unfold askFirst
  infer_instance

instance (f : NewTask → NewTask) {ask : BotM Unit} [Calm ask] : Calm (openDialog q now f ask) := by
  unfold openDialog
  infer_instance

instance (issue : PgdbIssue) : Calm (onStartSolving env q issue) := by
  unfold onStartSolving
  infer_instance

instance (issue : PgdbIssue) : Calm (onMorePhotosCommand env q now issue) := by
  unfold onMorePhotosCommand
  infer_instance

/-- The buttons whose handlers start no thread. -/
theorem pressButton_calm (issue : Option PgdbIssue) {b : Button}
    (h : b ≠ .myTasks ∧ b ≠ .taskClosing ∧ b ≠ .sendFile) :
    Calm (pressButton cfg env q now issue b) := by
  cases b with
  | myTasks => exact absurd rfl h.1
  | taskClosing => exact absurd rfl h.2.1
  | sendFile => exact absurd rfl h.2.2
  | startSolving | morePhotos => cases issue <;> simp only [pressButton, Option.elim] <;> infer_instance
  | _ =>
    simp only [pressButton, onReqMasterKey, onMsgAsBot, onMsgToGpt, onRunCommand, onRebootHost,
      onAddNewContractor, onSetNewMsiVersion, onNoMorePhotos, onTeklaEnterMenu, onTeklaGeneralIssue,
      onTeklaBack, onNewTask, onNewFamily, onNewTaskQuery, onNewFamilyQuery]
    infer_instance

end

end Chanserv
