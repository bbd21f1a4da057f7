import Chanserv.Bot.Calm

/-! Programs that leave the table of issues and the lists of contractors alone.

The table gets a row when a task is filed and loses one when an issue is closed;
a contractor's list is filled when he asks for it. All other programs keep a view
of both, by their shape, and instances see it. -/
namespace Chanserv
open Text Program

section
variable {σ α β γ ι : Type}

/-- Every run leaves the view as it was. -/
class Frames (view : σ → γ) (m : EStateM Stop σ α) : Prop where
  keeps : Keeps view (fun _ => True) m

variable {view : σ → γ} {m : EStateM Stop σ α}

theorem Frames.final (h : Frames view m) (s : σ) : view (Program.final m s) = view s :=
  of_wp (P := fun _ s' => view s' = view s) (wp_mono (h.keeps s) (fun _ _ hsame => hsame) fun _ _ hsame => hsame.2)

instance (a : α) : Frames view (pure a : EStateM Stop σ α) := ⟨.done a⟩

instance (e : Stop) : Frames view (throw e : EStateM Stop σ α) := ⟨.fails trivial⟩

instance : Frames view (get : EStateM Stop σ σ) := ⟨.reads⟩

theorem Frames.bind {f : α → EStateM Stop σ β} (hm : Frames view m) (hf : ∀ a, Frames view (f a)) :
    Frames view (m >>= f) :=
  ⟨hm.keeps.bind fun a => (hf a).keeps⟩

instance {f : α → EStateM Stop σ β} [hm : Frames view m] [hf : ∀ a, Frames view (f a)] :
    Frames view (m >>= f) :=
  hm.bind hf

instance {c : Prop} [Decidable c] {m : EStateM Stop σ Unit} [hm : Frames view m] :
    Frames view (guarded c m) :=
  ⟨.guarded fun _ => hm.keeps⟩

instance {c : Prop} [Decidable c] {m' : EStateM Stop σ α} [hm : Frames view m] [hm' : Frames view m'] :
    Frames view (if c then m else m') :=
  ⟨.ite hm.keeps hm'.keeps⟩

instance {is : List ι} {f : ι → EStateM Stop σ Unit} [hf : ∀ i, Frames view (f i)] :
    Frames view (forEach is f) :=
  ⟨.forEach fun i _ => (hf i).keeps⟩

theorem Frames.handling {h : Stop → EStateM Stop σ α} (hm : Frames view m) (hh : ∀ e, Frames view (h e)) :
    Frames view (handling m h) :=
  ⟨.handling hm.keeps fun e _ => (hh e).keeps⟩

theorem Frames.catching {h : Exn → EStateM Stop σ α} (hm : Frames view m) (hh : ∀ e, Frames view (h e)) :
    Frames view (catching m h) :=
  hm.handling fun stop => by cases stop <;> infer_instance

instance {h : Exn → EStateM Stop σ α} [hm : Frames view m] [hh : ∀ e, Frames view (h e)] :
    Frames view (catching m h) :=
  hm.catching hh

instance {h : EStateM Stop σ α} [hm : Frames view m] [hh : Frames view h] :
    Frames view (catchingTg m h) :=
  hm.handling fun stop => by
    cases stop with
    | throws e => cases e <;> infer_instance
    | _ => infer_instance

instance [hm : Frames view m] : Frames view (inThread m) :=
  hm.handling fun stop => by cases stop <;> infer_instance

end

/-! ### Calls

What a view does not see in the log, it does not see of the call. -/

section
variable {α γ : Type} {view : Shared → γ} {e : Effect}

theorem Frames.calls (hlog : Frames view (log e)) (r : Answer α) : Frames view (call e r) := by
  unfold call
  cases r <;> infer_instance

theorem Frames.executes {f : Db → Db} (hlog : Frames view (log e)) (hf : ∀ s, view {s with db := f s.db} = view s)
    (r : Answer Bool) : Frames view (sql e r f) := by
  have hcall := hlog.calls r
  have hwrite : Frames view (modify fun s : Shared => {s with db := f s.db} : ServiceM Unit) := ⟨.writes hf⟩
  unfold sql
  infer_instance

theorem Frames.selects (hlog : Frames view (log .selectRows)) (r : Answer Bool) (rows : Db → List α) :
    Frames view (select r rows) := by
  have hcall := hlog.calls r
  unfold select
  infer_instance

/-- A notice to staff, beside other statements. -/
theorem Frames.besideNotice {cfg : Config} {ahead : Nat → Nat} {text : Text} {kb : Keyboard} {r : Nat → Sending}
    {ms : List (ServiceM Unit)} (htold : ∀ employee, Frames view (log (.sendMessage (.user employee) text kb)))
    (hms : ∀ m ∈ ms, Frames view m) : Frames view (besideThread ahead (noticesToStaff cfg text kb r) ms) := by
  refine ⟨Keeps.beside (fun t ht => ?_) fun m hm => (hms m hm).keeps⟩
  obtain ⟨⟨employee, i⟩, -, rfl⟩ := List.mem_map.mp ht
  have hcall := (htold employee).calls (r i)
  have hnotice : Frames view (inThread (catchingTg
      (do let _ ← call (.sendMessage (.user employee) text kb) (r i)) (pure ()))) := inferInstance
  exact hnotice.keeps

theorem Frames.reloadsConsumers (hlog : Frames view (log .selectRows))
    (hids : ∀ s vConsumers, view {s with vConsumers} = view s) (r : Answer Bool) :
    Frames view (reloadConsumersList r) := by
  have hselect := hlog.selects r fun db => db.consumers.map Prod.fst
  have hwrite (ids : List Int) :
      Frames view (modify fun s : Shared => {s with vConsumers := ids} : ServiceM Unit) :=
    ⟨.writes fun s => hids s ids⟩
  unfold reloadConsumersList
  infer_instance

theorem Frames.addsConsumer {user : TgUser} (hlog : Frames view (log (.insertConsumer user.id user.username)))
    (hcommit : Frames view (log .commit))
    (hconsumers : ∀ s consumers, view {s with db := {s.db with consumers}} = view s) (env : DispatcherEnv) :
    Frames view (addConsumerToDb env user) := by
  have hinsert := hlog.executes (f := fun db => {db with consumers := db.consumers ++ [(user.id, user.username)]})
    (fun s => hconsumers s _) env.insertConsumer
  have hdone := hcommit.calls env.commit
  unfold addConsumerToDb
  infer_instance

end

/-! ### The views -/

/-- The rows of the table, and the next id. -/
def Shared.table (s : Shared) : List IssueRow × Int := (s.db.issues, s.db.nextIssueId)

/-- The same, with the issues listed in the session. -/
def Chat.listing (c : Chat) : List PgdbIssue × List IssueRow × Int := (c.ud.pgdbIssues, c.sh.table)

/-- The consumers in memory and in their table. -/
def Shared.roll (s : Shared) : List Int × List (Int × Text) := (s.vConsumers, s.db.consumers)

def Shared.registers (s : Shared) : (List IssueRow × Int) × List Int × List (Int × Text) := (s.table, s.roll)

/-- A view of the tables: nothing that is called or sent changes it. -/
class SeesTables {γ : Type} (view : Shared → γ) : Prop where
  of_db : ∀ {s s' : Shared}, s'.db = s.db → view s' = view s

instance : SeesTables Shared.table := ⟨fun h => by rw [Shared.table, Shared.table, h]⟩

/-- The same, of a view that may see the consumers in memory. -/
class SeesRegisters {γ : Type} (view : Shared → γ) : Prop where
  of_db : ∀ {s s' : Shared}, s'.db = s.db → s'.vConsumers = s.vConsumers → view s' = view s

instance {γ : Type} {view : Shared → γ} [SeesTables view] : SeesRegisters view := ⟨fun h _ => SeesTables.of_db h⟩

instance : SeesRegisters Shared.registers where
  of_db hdb hconsumers := by
    rw [Shared.registers, Shared.registers, Shared.table, Shared.table, Shared.roll, Shared.roll, hdb, hconsumers]

/-- All tables, with the consumers in memory. -/
def Shared.known (s : Shared) : Db × List Int := (s.db, s.vConsumers)

instance : SeesRegisters Shared.known := ⟨fun hdb hconsumers => Prod.ext hdb hconsumers⟩

section
variable {α γ : Type} {view : Shared → γ} [SeesRegisters view]

/-- What is written beside the tables. -/
theorem frames_beside {f : Shared → Shared} (hf : ∀ s, (f s).db = s.db) (hconsumers : ∀ s, (f s).vConsumers = s.vConsumers) :
    Frames view (modify f : ServiceM Unit) :=
  ⟨.writes fun s => SeesRegisters.of_db (hf s) (hconsumers s)⟩

instance (e : Effect) : Frames view (log e) := frames_beside (fun _ => rfl) fun _ => rfl

instance (e : Effect) (r : Answer α) : Frames view (call e r) := .calls inferInstance r

theorem frames_tables {e : Effect} {r : Answer Bool} {f : Db → Db} (hf : ∀ s, view {s with db := f s.db} = view s) :
    Frames view (sql e r f) :=
  .executes inferInstance hf r

instance (r : Answer Bool) (rows : Db → List α) : Frames view (select r rows) := .selects inferInstance r rows

end

section
variable {α : Type}

/-- A statement about another table. -/
theorem frames_sql {e : Effect} {r : Answer Bool} {f : Db → Db}
    (hf : ∀ db, (f db).issues = db.issues ∧ (f db).nextIssueId = db.nextIssueId ∧ (f db).consumers = db.consumers) :
    Frames Shared.registers (sql e r f) :=
  frames_tables fun s => by
    obtain ⟨hissues, hnext, hconsumers⟩ := hf s.db
    exact Prod.ext (Prod.ext hissues hnext) (Prod.ext rfl hconsumers)

instance {m : ServiceM α} [hm : Frames Shared.table m] : Frames Chat.listing (service m) :=
  ⟨hm.keeps.zoom fun _ _ hs => Prod.ext rfl hs⟩

instance (f : NewTask → NewTask) : Frames Chat.listing (modifyTask f) := ⟨.writes fun _ => rfl⟩

end

/-! ### Messages and requests -/

section
variable {α γ : Type} {cfg : Config} {view : Shared → γ} [SeesRegisters view]

instance : Frames view (throwStd : ServiceM α) := by
  unfold throwStd
  infer_instance

instance (info : Text) (kb : Keyboard) (r : Sending) :
    Frames view (sendMsgToSupport cfg info kb r) := by
  unfold sendMsgToSupport
  infer_instance

instance (info : Text) (task : NewTask) (kb : Keyboard) (r : Sending) :
    Frames view (sendTaskToSupport cfg info task kb r) := by
  unfold sendTaskToSupport
  infer_instance

instance (text : Text) (kb : Keyboard) (r : Nat → Sending) :
    Frames view (sendMsgToStaff cfg text kb r) := by
  unfold sendMsgToStaff
  infer_instance

instance (receivers : List Int) : Frames view (sendDocumentToAll receivers) := by
  unfold sendDocumentToAll
  infer_instance

instance (receiver : Int) (issue : PgdbIssue) (r : Sending) : Frames view (sendIssue receiver issue r) := by
  unfold sendIssue
  split <;> infer_instance

instance (card path : Text) (r : Answer Unit) : Frames view (addImgToCard card path r) := by
  unfold addImgToCard
  infer_instance

instance (card color : Text) (r : Answer Unit) : Frames view (changeCardColor card color r) := by
  unfold changeCardColor
  infer_instance

instance (card : Text) (r : Answer Unit) : Frames view (archivingCard card r) := by
  unfold archivingCard
  infer_instance

instance (listId name description : Text) (r : Answer CurlReply) :
    Frames view (createNewCard listId name description r) := by
  rw [createNewCard_eq]
  infer_instance

instance (r : Answer Bool) : Frames view (reloadContractorsList r) := by
  have hclear : Frames view (modify fun s : Shared => {s with vContractors := []} : ServiceM Unit) :=
    frames_beside (fun _ => rfl) fun _ => rfl
  have hread (read : List Contractor) : Frames view (modify fun s : Shared =>
      { s with
        vContractors := read
        vAllowedContractors := s.vAllowedContractors ++ read.map (·.id) } : ServiceM Unit) :=
    frames_beside (fun _ => rfl) fun _ => rfl
  unfold reloadContractorsList
  infer_instance

instance (path key : Text) (r : Answer Unit) : Frames view (addAttach path key r) := by
  unfold addAttach
  infer_instance

instance (task : NewTask) (projectName : Text) (r : Answer CurlReply) :
    Frames view (createTask task projectName r) := by
  rw [createTask_eq]
  infer_instance

end

instance {γ : Type} {view : Shared → γ} [SeesTables view] (r : Answer Bool) : Frames view (reloadConsumersList r) :=
  .reloadsConsumers inferInstance (fun _ _ => SeesTables.of_db rfl) r

/-! ### Filing a task -/

/-- A view of a chat that sees nothing but the tables of what is noted while a task is filed. -/
class SeesFiled {γ : Type} (view : Chat → γ) : Prop where
  of_known : ∀ {c : Chat} {sh : Shared}, sh.known = c.sh.known → view {c with sh} = view c
  lastError : ∀ (c : Chat) lastError, view {c with ud := {c.ud with lastError}} = view c
  createdCardId : ∀ (c : Chat) createdCardId, view {c with ud := {c.ud with createdCardId}} = view c
  idCard : ∀ (c : Chat) idCard, view {c with ud := {c.ud with jiraTask := {c.ud.jiraTask with idCard}}} = view c

instance : SeesFiled Chat.listing where
  of_known {c sh} h := by
    have htable : sh.table = c.sh.table := SeesTables.of_db (congrArg Prod.fst h)
    rw [Chat.listing, Chat.listing, htable]
  lastError _ _ := rfl
  createdCardId _ _ := rfl
  idCard _ _ := rfl

section
variable {α γ : Type} {view : Chat → γ} [SeesFiled view]
variable {cfg : Config} {env : CreateIssueEnv} {head : Text} {message : Message}

instance {m : ServiceM α} [hm : Frames Shared.known m] : Frames view (service m) :=
  ⟨hm.keeps.zoom fun _ _ hs => SeesFiled.of_known hs⟩

instance : Frames view (fileImages env) := by
  unfold fileImages
  infer_instance

instance : Frames view (notifyStaff cfg env) := by
  unfold notifyStaff
  infer_instance

instance : Frames view (thankUser cfg env message) := by
  unfold thankUser
  have hsticker (sticker : Option Text) : Frames view (match sticker with
      | none => pure ()
      | some sticker => do
        let _ ← service (call (.sendSticker (.user message.chat.id) sticker) env.sendSticker)) := by
    cases sticker <;> infer_instance
  infer_instance

instance (issueNum : Int) : Frames view (fileAttachments cfg env issueNum) := by
  unfold fileAttachments
  infer_instance

instance : Frames view (fileInJira cfg env head) := by
  have herror : Frames view (modifySession fun u => {u with lastError := 1}) :=
    ⟨.writes fun c => SeesFiled.lastError c 1⟩
  unfold fileInJira
  infer_instance

instance : Frames view (fileCard cfg env head) := by
  have hid (id : Text) : Frames view (modifySession fun u => {u with createdCardId := id}) :=
    ⟨.writes fun c => SeesFiled.createdCardId c id⟩
  have htask : Frames view (modifySession fun u => {u with jiraTask := {u.jiraTask with idCard := u.createdCardId}}) :=
    ⟨.writes fun c => SeesFiled.idCard c c.ud.createdCardId⟩
  unfold fileCard
  have hcard (task : NewTask) (card : Except TrelloError Text) : Frames view (match card with
      | .ok id => modifySession fun u => {u with createdCardId := id}
      | .error _ =>
        service (sendTaskToSupport cfg (of "Ошибка создания карточки " ++ head) task .goDashboard
          env.cardReport)) := by
    cases card <;> infer_instance
  infer_instance

end

end Chanserv
