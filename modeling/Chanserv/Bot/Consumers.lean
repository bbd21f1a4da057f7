import Chanserv.Bot.Lives
import Chanserv.Program.Traces
import Mathlib.Data.List.Induction

/-! The register of consumers.

Who writes to the bot becomes a consumer: the dispatcher gives him a row, and reads
the ids of all rows anew. A file for all goes to the ids in memory, so these must be
those of the table, each once. Statements fail, and the bot is started again; what
is in memory is the first part of what is in the table, and all of it once somebody
new was served. -/
namespace Chanserv
open Text Program

/-! ### Programs that leave the register alone -/

/-- What the dispatcher writes: the ids in memory, and the rows of the table. -/
abbrev Roll := List Int × List (Int × Text)

instance : SeesRegisters Shared.roll := ⟨fun hdb hconsumers => by rw [Shared.roll, Shared.roll, hdb, hconsumers]⟩

def SameRoll (s s' : Shared) : Prop := s'.roll = s.roll

instance : Std.Refl SameRoll := ⟨fun _ => rfl⟩

instance : IsTrans Shared SameRoll := ⟨fun _ _ _ h h' => Eq.trans h' h⟩

instance : OfRegisters SameRoll := ⟨fun h => congrArg Prod.snd h⟩

instance : OfDeletes SameRoll := ⟨fun _ _ => rfl⟩

/-- The register, seen from a session. -/
def Chat.roll (c : Chat) : Roll := c.sh.roll

instance : SeesFiled Chat.roll where
  of_known h := SeesRegisters.of_db (congrArg Prod.fst h) (congrArg Prod.snd h)
  lastError _ _ := rfl
  createdCardId _ _ := rfl
  idCard _ _ := rfl

section
variable {α : Type} {cfg : Config} {env : CreateIssueEnv} {head : Text} {message : Message}

instance {m : ServiceM α} [hm : Frames Shared.roll m] : Frames Chat.roll (service m) :=
  ⟨hm.keeps.zoom fun _ _ hs => hs⟩

instance (f : UserDispatcher → UserDispatcher) : Frames Chat.roll (modifySession f) := ⟨.writes fun _ => rfl⟩

instance (f : NewTask → NewTask) : Frames Chat.roll (modifyTask f) := ⟨.writes fun _ => rfl⟩

instance (task : NewTask) (table : IssueTable) : Frames Shared.roll (writeIssueToDb task table env) := by
  have hinsert := @frames_tables _ Shared.roll _ (.insertIssue table (rowOfTask task)) env.insertIssue
    (fun db => db.insertIssue table (rowOfTask task)) fun _ => by cases table <;> rfl
  unfold writeIssueToDb
  infer_instance

instance : Frames Chat.roll (fileRow cfg env) := by
  unfold fileRow
  infer_instance

instance : Frames Chat.roll (fileOnBoard cfg env head) := by
  unfold fileOnBoard
  infer_instance

instance : Frames Chat.roll (submitTask cfg env message) := by
  have hrest (head : Text) : Frames Chat.roll (do
      thankUser cfg env message
      fileInJira cfg env head) := inferInstance
  unfold submitTask
  infer_instance

instance : Frames Chat.roll (createNewIssue cfg env message) := by
  unfold createNewIssue
  infer_instance

/-- A task is filed without a look at the register. -/
instance : OfFilings SameRoll where
  file cfg env m := .of_frames (inferInstanceAs (Frames Chat.roll (createNewIssue cfg env m))) fun _ _ h => h

end

/-! ### The dispatcher -/

def Shared.consumerIds (s : Shared) : List Int := s.db.consumers.map Prod.fst

/-- What a SELECT makes of the register. -/
def DispatcherEnv.reload (env : DispatcherEnv) (rows : List (Int × Text)) : Roll :=
  (if env.selectConsumers = .returns true then rows.map Prod.fst else [], rows)

/-- What becomes of the register when somebody has written. -/
def DispatcherEnv.enrol (env : DispatcherEnv) (user : TgUser) (r : Roll) : Roll :=
  if user.id ∈ r.1 then r
  else
    match env.insertConsumer, env.commit with
    | .throws _, _ => r
    | .returns false, _ => env.reload r.2
    | .returns true, .throws _ => (r.1, r.2 ++ [(user.id, user.username)])
    | .returns true, .returns _ => env.reload (r.2 ++ [(user.id, user.username)])

section
variable {cfg : Config} {denv : DispatcherEnv} {user : TgUser} {m : Message} {now : Int} {w : World} {s : Shared}

theorem DispatcherEnv.enrol_listed {r : Roll} (h : user.id ∈ r.1) : denv.enrol user r = r := if_pos h

theorem DispatcherEnv.enrol_new {r : Roll} {ok : Bool} (hnew : user.id ∉ r.1)
    (hinsert : denv.insertConsumer = .returns true) (hcommit : denv.commit = .returns ok) :
    denv.enrol user r = denv.reload (r.2 ++ [(user.id, user.username)]) := by
  rw [enrol, if_neg hnew, hinsert, hcommit]

theorem wp_reload {rows : List (Int × Text)} (hrows : s.db.consumers = rows) :
    wp (reloadConsumersList denv.selectConsumers) (fun _ s' => s'.roll = denv.reload rows)
      (fun _ s' => s'.roll = denv.reload rows) s := by
  rw [reloadConsumersList, wp_bind, wp_modify, wp_bind, wp_select]
  refine ⟨fun hok => ?_, fun hok => ?_, fun x hx => ?_⟩
  · rw [wp_modify, DispatcherEnv.reload, if_pos hok, ← hrows]
    rfl
  · rw [wp_modify, DispatcherEnv.reload, if_neg (by rw [hok]; decide), ← hrows]
    rfl
  · rw [DispatcherEnv.reload, if_neg (by rw [hx]; simp), ← hrows]
    rfl

/-- Somebody who is not on the list is given a row, and the list is read. -/
theorem wp_enrol (hnew : user.id ∉ s.vConsumers) :
    wp (do addConsumerToDb denv user; reloadConsumersList denv.selectConsumers)
      (fun _ s' => s'.roll = denv.enrol user s.roll) (fun _ s' => s'.roll = denv.enrol user s.roll) s := by
  have hunlisted : user.id ∉ s.roll.1 := hnew
  have hread {rows : List (Int × Text)} {s₁ : Shared} (hrows : s₁.db.consumers = rows)
      (henrol : denv.enrol user s.roll = denv.reload rows) :
      wp (reloadConsumersList denv.selectConsumers)
        (fun _ s' => s'.roll = denv.enrol user s.roll) (fun _ s' => s'.roll = denv.enrol user s.roll) s₁ := by
    rw [henrol]
    exact wp_reload hrows
  rw [wp_bind, addConsumerToDb, wp_bind, wp_get, wp_guarded]
  refine ⟨fun _ => ?_, fun hlisted => absurd hnew hlisted⟩
  rw [wp_bind, wp_sql]
  refine ⟨fun hinsert => wp_guarded_of rfl ?_, fun hinsert => wp_guarded_of_not Bool.false_ne_true ?_, ?_⟩
  · rw [wp_bind, wp_call]
    refine ⟨fun ok hcommit => hread rfl (DispatcherEnv.enrol_new hunlisted hinsert hcommit), fun x hcommit => ?_⟩
    · rw [DispatcherEnv.enrol, if_neg hunlisted, hinsert, hcommit]
      rfl
  · refine hread rfl ?_
    rw [DispatcherEnv.enrol, if_neg hunlisted, hinsert]
    rfl
  · intro x hinsert
    rw [DispatcherEnv.enrol, if_neg hunlisted, hinsert]
    rfl

/-- The rest of the dispatcher is about the sessions. -/
theorem sessionDispatcher_roll : wp (sessionDispatcher cfg denv now m)
    (fun _ w' => w'.sh.roll = denv.enrol m.from_ w.sh.roll)
    (fun _ w' => w'.sh.roll = denv.enrol m.from_ w.sh.roll) w := by
  have hrest {create : World → World} (hcreate : ∀ w, (create w).sh = w.sh) : Stays (OnWorld SameRoll) (do
      evictIdleSessions cfg now
      let found ← selectSession now m.from_.id
      guarded (found = false) (modify create)) := by
    have hdue : Stays (OnWorld SameRoll) (modify fun w => {w with mLastSessionsCleanup := now} : BotM Unit) :=
      ⟨.writes fun _ => rfl⟩
    have hevict : Stays (OnWorld SameRoll) (modify fun w : World =>
        {w with mSessions := (w.mSessions.evictIdle now (sessionTtl cfg)).2, uD := none} : BotM Unit) :=
      ⟨.writes fun _ => rfl⟩
    have hselect : Stays (OnWorld SameRoll) (selectSession now m.from_.id) := Stays.onWorld
    have hnew : Stays (OnWorld SameRoll) (modify create : BotM Unit) :=
      ⟨.writes fun w => congrArg Shared.roll (hcreate w)⟩
    unfold evictIdleSessions
    infer_instance
  have hsame {create : World → World} (hcreate : ∀ w, (create w).sh = w.sh) {w₁ : World}
      (hw₁ : w₁.sh.roll = denv.enrol m.from_ w.sh.roll) : wp (do
        evictIdleSessions cfg now
        let found ← selectSession now m.from_.id
        guarded (found = false) (modify create))
      (fun _ w' => w'.sh.roll = denv.enrol m.from_ w.sh.roll)
      (fun _ w' => w'.sh.roll = denv.enrol m.from_ w.sh.roll) w₁ :=
    wp_mono ((hrest hcreate).within w₁) (fun _ _ h => Eq.trans h hw₁) fun _ _ h => Eq.trans h hw₁
  rw [sessionDispatcher, wp_bind, wp_get, wp_bind, wp_guarded]
  constructor
  · intro hnew
    rw [serviceBot, wp_zoom]
    refine wp_mono (wp_enrol hnew) (fun _ sh h => hsame ?_ h) fun _ _ h => h
    exact fun _ => rfl
  · intro hlisted
    have hsame' : w.sh.roll = denv.enrol m.from_ w.sh.roll := (DispatcherEnv.enrol_listed (not_not.mp hlisted)).symm
    refine hsame ?_ hsame'
    exact fun _ => rfl

end

/-! ### One deed -/

/-- Who has written, if the update is something written. -/
def Update.writer : Update → Option TgUser
  | .command _ m => some m.from_
  | .message m => some m.from_
  | .callback _ => none

def Deed.writer : Deed → Option TgUser
  | .update _ x => x.writer
  | _ => none

/-- The register after a deed. -/
def Deed.roll (w : World) : Deed → Roll
  | .update env x => x.writer.elim w.sh.roll fun user => env.dispatcher.enrol user w.sh.roll
  | .restart sh => (sh.vConsumers, w.sh.db.consumers)
  | .others db _ => (w.sh.vConsumers, db.consumers)
  | _ => w.sh.roll

section
variable {cfg : Config} {w : World}

/-- Only the dispatcher writes the register, and only for who has written. -/
theorem handleUpdate_roll (env : UpdateEnv) (x : Update) :
    (final (handleUpdate cfg env x) w).sh.roll = (Deed.update env x).roll w := by
  have hwritten {m : Message} {handler : BotM Unit} (hhandler : Stays (OnWorld SameRoll) handler) :
      (final (do sessionDispatcher cfg env.dispatcher env.now m; handler) w).sh.roll =
        env.dispatcher.enrol m.from_ w.sh.roll := by
    refine of_wp (P := fun _ (w' : World) => w'.sh.roll = _) ?_
    rw [wp_bind]
    refine wp_mono sessionDispatcher_roll (fun _ w₁ h₁ => ?_) fun _ _ h => h
    exact wp_mono (hhandler.within w₁) (fun _ _ h => Eq.trans h h₁) fun _ _ h => Eq.trans h h₁
  cases x with
  | message m => exact hwritten (handleSmallTalk_onWorld _ _ _)
  | command name m =>
    have hcommand : Stays (OnWorld SameRoll) (onCommand cfg env.command env.now m name) := Stays.onWorld
    exact hwritten hcommand
  | callback q =>
    have hclick : Stays (OnWorld SameRoll) (onCallbackQuery cfg env.callback q env.now) :=
      onCallbackQuery_onWorld fun _ => inferInstance
    exact of_wp (P := fun _ => OnWorld SameRoll w) (hclick.within w)

/-- The checker has no statement about consumers. -/
theorem Inspection.run_consumers (i : Inspection) (db : Db) : (i.run cfg db).consumers = db.consumers := by
  cases i with
  | removal idCard => rfl
  | visit c idCard env =>
    have hadmits : Admits (fun _ => True) SameRoll idCard := ⟨fun _ _ _ => rfl, fun _ _ _ => rfl, fun _ => rfl⟩
    have hvisit : Within (OnShared SameRoll) (processCard cfg idCard env) := by
      apply hadmits.processCard
      · exact fun _ _ hs => hs
      · exact fun _ => rfl
      · exact fun _ _ _ _ => trivial
    exact congrArg Prod.snd (of_wp (P := fun _ => OnShared SameRoll {c with sh := {c.sh with db}}) (hvisit _))

theorem Deed.after_roll (d : Deed) : (d.after cfg w).sh.roll = d.roll w := by
  cases d with
  | update env x => exact handleUpdate_roll env x
  | job env task => exact of_wp (P := fun _ => OnWorld SameRoll w) ((runTask_onWorld env task).within w)
  | inspected i => exact Prod.ext rfl (i.run_consumers w.sh.db)
  | queued | restart | others => rfl

end

/-! ### Registered once -/

/-- Nobody is in the table twice, and the ids in memory are the first ones of it. -/
structure Enlisted (r : Roll) : Prop where
  alone : (r.2.map Prod.fst).Nodup
  listed : r.1 <+: r.2.map Prod.fst

/-- The key of the table keeps a second row of an id out, a new process reads the table, and other programs leave it
alone. -/
def Deed.KeepsKey (w : World) : Deed → Prop
  | .update env x => ∀ user ∈ x.writer, user.id ∉ w.sh.vConsumers → env.dispatcher.insertConsumer = .returns true →
      user.id ∉ w.sh.consumerIds
  | .restart sh => sh.vConsumers = [] ∨ sh.vConsumers = w.sh.consumerIds
  | .others db _ => db.consumers = w.sh.db.consumers
  | _ => True

section
variable {cfg : Config} {denv : DispatcherEnv} {user : TgUser} {r : Roll} {w : World}

theorem DispatcherEnv.reload_enlisted {rows : List (Int × Text)} (h : (rows.map Prod.fst).Nodup) :
    Enlisted (denv.reload rows) := by
  refine ⟨h, ?_⟩
  rw [DispatcherEnv.reload]
  split
  · exact List.prefix_rfl
  · exact List.nil_prefix

/-- A row more, or none. -/
theorem DispatcherEnv.enrol_rows (denv : DispatcherEnv) (user : TgUser) (r : Roll) :
    (denv.enrol user r).2 = r.2 ∨
      denv.insertConsumer = .returns true ∧ (denv.enrol user r).2 = r.2 ++ [(user.id, user.username)] := by
  rw [enrol]
  split
  · exact .inl rfl
  · split
    · exact .inl rfl
    · exact .inl rfl
    · next hinsert _ => exact .inr ⟨hinsert, rfl⟩
    · next hinsert _ => exact .inr ⟨hinsert, rfl⟩

theorem DispatcherEnv.enrol_enlisted (h : Enlisted r)
    (hkey : user.id ∉ r.1 → denv.insertConsumer = .returns true → user.id ∉ r.2.map Prod.fst) :
    Enlisted (denv.enrol user r) := by
  have hmore (hnew : user.id ∉ r.1) (hinsert : denv.insertConsumer = .returns true) :
      ((r.2 ++ [(user.id, user.username)]).map Prod.fst).Nodup := by
    rw [List.map_append, List.map_singleton, ← List.concat_eq_append]
    exact h.alone.concat (hkey hnew hinsert)
  rw [enrol]
  split
  · exact h
  · next hnew =>
    split
    · exact h
    · exact reload_enlisted h.alone
    · next hinsert _ =>
      refine ⟨hmore hnew hinsert, h.listed.trans ?_⟩
      rw [List.map_append]
      exact List.prefix_append _ _
    · next hinsert _ => exact reload_enlisted (hmore hnew hinsert)

theorem Enlisted.subset (h : Enlisted w.sh.roll) : w.sh.vConsumers ⊆ w.sh.consumerIds := h.listed.subset

/-- A deed leaves the register in order. -/
theorem Deed.roll_enlisted {d : Deed} (h : Enlisted w.sh.roll) (hkey : d.KeepsKey w) : Enlisted (d.roll w) := by
  cases d with
  | update env x =>
    rw [roll]
    cases hwriter : x.writer with
    | none => exact h
    | some user => exact DispatcherEnv.enrol_enlisted h (hkey user hwriter)
  | restart sh =>
    refine ⟨h.alone, ?_⟩
    show sh.vConsumers <+: w.sh.consumerIds
    rcases hkey with hnone | hall
    · rw [hnone]
      exact List.nil_prefix
    · exact ⟨[], (List.append_nil _).trans hall⟩
  | others db skipped =>
    have hsame : (Deed.others db skipped).roll w = w.sh.roll := Prod.ext rfl hkey
    exact hsame ▸ h
  | job | queued | inspected => exact h

/-- A deed adds the row of who has written, or none. -/
theorem Deed.roll_rows {d : Deed} (hkey : d.KeepsKey w) : (d.roll w).2 = w.sh.db.consumers ∨
    ∃ user ∈ d.writer, (d.roll w).2 = w.sh.db.consumers ++ [(user.id, user.username)] := by
  cases d with
  | update env x =>
    cases hwriter : x.writer with
    | none => exact .inl (by rw [roll, hwriter]; rfl)
    | some user =>
      have hroll : (Deed.update env x).roll w = env.dispatcher.enrol user w.sh.roll := by rw [roll, hwriter]; rfl
      rw [hroll]
      exact (env.dispatcher.enrol_rows user w.sh.roll).imp_right fun h => ⟨user, hwriter, h.2⟩
  | others db skipped => exact .inl hkey
  | job | queued | inspected | restart => exact .inl rfl

theorem World.lived_enlisted (h : Enlisted w.sh.roll) (ds : List Deed)
    (hkeys : ∀ before d after, ds = before ++ d :: after → d.KeepsKey (w.lived cfg before)) :
    Enlisted (w.lived cfg ds).sh.roll := by
  induction ds using List.reverseRecOn with
  | nil => exact h
  | append_singleton ds d ih =>
    obtain ⟨hbefore, hkey⟩ := forall_split_concat.mp hkeys
    rw [World.lived_concat, Deed.after_roll]
    exact Deed.roll_enlisted (ih hbefore) hkey

/-- Rows are added, one for each who has written at most. -/
theorem World.lived_consumers (ds : List Deed)
    (hkeys : ∀ before d after, ds = before ++ d :: after → d.KeepsKey (w.lived cfg before)) :
    w.sh.db.consumers <+: (w.lived cfg ds).sh.db.consumers ∧
      ∀ row ∈ (w.lived cfg ds).sh.db.consumers, row ∈ w.sh.db.consumers ∨
        ∃ d ∈ ds, ∃ user ∈ d.writer, row = (user.id, user.username) := by
  induction ds using List.reverseRecOn with
  | nil => exact ⟨List.prefix_rfl, fun _ hrow => .inl hrow⟩
  | append_singleton ds d ih =>
    obtain ⟨hbefore, hkey⟩ := forall_split_concat.mp hkeys
    obtain ⟨hgrown, hrows⟩ := ih hbefore
    have hearlier {row : Int × Text} (hrow : row ∈ (w.lived cfg ds).sh.db.consumers) : row ∈ w.sh.db.consumers ∨
        ∃ e ∈ ds ++ [d], ∃ user ∈ e.writer, row = (user.id, user.username) := by
      refine (hrows row hrow).imp_right fun hwrote => ?_
      obtain ⟨e, he, hwrote⟩ := hwrote
      exact ⟨e, List.mem_append_left _ he, hwrote⟩
    have hnow : (w.lived cfg (ds ++ [d])).sh.db.consumers = (d.roll (w.lived cfg ds)).2 := by
      rw [World.lived_concat]
      exact congrArg Prod.snd d.after_roll
    rw [hnow]
    rcases Deed.roll_rows hkey with hsame | ⟨user, hwriter, hmore⟩
    · rw [hsame]
      exact ⟨hgrown, fun row => hearlier⟩
    · rw [hmore]
      refine ⟨hgrown.trans (List.prefix_append _ _), fun row hrow => ?_⟩
      rcases List.mem_append.mp hrow with hrow | hrow
      · exact hearlier hrow
      · exact .inr ⟨d, List.mem_concat_self, user, hwriter, List.mem_singleton.mp hrow⟩

/-- **A consumer is registered once and stays so.** Whatever is said to the bot and whichever statements fail, no id
is in the table twice; a file for all goes to ids of the table, to none of them twice; rows are only added, for who
has written. -/
theorem consumers_registered (h : Enlisted w.sh.roll) (ds : List Deed)
    (hkeys : ∀ before d after, ds = before ++ d :: after → d.KeepsKey (w.lived cfg before)) :
    let s := (w.lived cfg ds).sh
    s.consumerIds.Nodup ∧ s.vConsumers.Nodup ∧ s.vConsumers ⊆ s.consumerIds ∧ w.sh.db.consumers <+: s.db.consumers ∧
      ∀ row ∈ s.db.consumers, row ∈ w.sh.db.consumers ∨
        ∃ d ∈ ds, ∃ user ∈ d.writer, row = (user.id, user.username) := by
  intro s
  have hnow : Enlisted s.roll := World.lived_enlisted h ds hkeys
  exact ⟨hnow.alone, hnow.listed.sublist.nodup hnow.alone, hnow.subset, World.lived_consumers ds hkeys⟩

end

/-! ### Everyone who wrote -/

/-- Somebody of this id has written. -/
def Deed.WrittenBy (d : Deed) (id : Int) : Prop := ∃ user ∈ d.writer, user.id = id

/-- The statements about consumers succeed, and a new process reads the table. -/
def Deed.Serves (w : World) : Deed → Prop
  | .update env x => ∀ user ∈ x.writer, user.id ∉ w.sh.vConsumers →
      env.dispatcher.insertConsumer = .returns (decide (user.id ∉ w.sh.consumerIds)) ∧ env.dispatcher.commit.Normal ∧
        env.dispatcher.selectConsumers = .returns true
  | .restart sh => sh.vConsumers = w.sh.consumerIds
  | .others db _ => db.consumers = w.sh.db.consumers
  | _ => True

section
variable {cfg : Config} {denv : DispatcherEnv} {user : TgUser} {r : Roll} {w : World}

theorem Deed.Serves.keepsKey {d : Deed} (h : d.Serves w) : d.KeepsKey w := by
  cases d with
  | update env x =>
    intro user hwriter hnew hinsert
    rw [(h user hwriter hnew).1, Reply.returns.injEq] at hinsert
    exact of_decide_eq_true hinsert
  | restart sh => exact .inr h
  | others db skipped => exact h
  | job | queued | inspected => trivial

/-- Somebody new gets his row if he has none, and the list is that of the table. -/
theorem DispatcherEnv.enrol_serves (hnew : user.id ∉ r.1)
    (hinsert : denv.insertConsumer = .returns (decide (user.id ∉ r.2.map Prod.fst))) (hcommit : denv.commit.Normal)
    (hselect : denv.selectConsumers = .returns true) :
    (denv.enrol user r).1 = (denv.enrol user r).2.map Prod.fst ∧
      ∀ id, id ∈ (denv.enrol user r).1 ↔ id ∈ r.2.map Prod.fst ∨ user.id = id := by
  have hread (rows : List (Int × Text)) : denv.reload rows = (rows.map Prod.fst, rows) := by
    rw [reload, if_pos hselect]
  by_cases hknown : user.id ∈ r.2.map Prod.fst
  · rw [decide_eq_false (not_not.mpr hknown)] at hinsert
    have hroll : denv.enrol user r = (r.2.map Prod.fst, r.2) := by rw [enrol, if_neg hnew, hinsert, ← hread]
    rw [hroll]
    refine ⟨rfl, fun id => ⟨.inl, ?_⟩⟩
    intro hid
    rcases hid with hid | rfl
    · exact hid
    · exact hknown
  · rw [decide_eq_true hknown] at hinsert
    cases hok : denv.commit with
    | throws x => exact absurd hok hcommit.not_throws
    | returns ok =>
      rw [enrol_new hnew hinsert hok, hread]
      refine ⟨rfl, fun id => ?_⟩
      rw [List.map_append, List.mem_append, List.map_singleton, List.mem_singleton]
      exact or_congr_right eq_comm

/-- Nobody new has written, and the register is as it was; or all of the table is in memory, and who has written is
in it. -/
theorem Deed.roll_serves {d : Deed} (h : d.Serves w) :
    (d.roll w = w.sh.roll ∧ ∀ id, d.WrittenBy id → id ∈ w.sh.vConsumers) ∨
      (d.roll w).1 = (d.roll w).2.map Prod.fst ∧ ∀ id, id ∈ (d.roll w).1 ↔ id ∈ w.sh.consumerIds ∨ d.WrittenBy id := by
  have hsilent (hnobody : d.writer = none) (id : Int) : ¬d.WrittenBy id := by
    intro hwrote
    obtain ⟨user, hwriter, -⟩ := hwrote
    rw [hnobody] at hwriter
    cases hwriter
  cases d with
  | update env x =>
    cases hwriter : x.writer with
    | none =>
      have hroll : (Deed.update env x).roll w = w.sh.roll := by rw [roll, hwriter]; rfl
      exact .inl ⟨hroll, fun id hid => absurd hid (hsilent hwriter id)⟩
    | some user =>
      have hwrote (id : Int) : user.id = id ↔ (Deed.update env x).WrittenBy id := by
        rw [WrittenBy, show (Deed.update env x).writer = some user from hwriter]
        simp
      have hroll : (Deed.update env x).roll w = env.dispatcher.enrol user w.sh.roll := by rw [roll, hwriter]; rfl
      rw [hroll]
      by_cases hlisted : user.id ∈ w.sh.roll.1
      · rw [DispatcherEnv.enrol_listed hlisted]
        exact .inl ⟨rfl, fun id hid => (hwrote id).mpr hid ▸ hlisted⟩
      · obtain ⟨hinsert, hcommit, hselect⟩ := h user hwriter hlisted
        obtain ⟨hall, hids⟩ := DispatcherEnv.enrol_serves hlisted hinsert hcommit hselect
        exact .inr ⟨hall, fun id => (hids id).trans (or_congr_right (hwrote id))⟩
  | restart sh =>
    have hread : ((Deed.restart sh).roll w).1 = w.sh.consumerIds := h
    refine .inr ⟨hread, fun id => ?_⟩
    rw [hread, or_iff_left (hsilent rfl id)]
  | others db skipped => exact .inl ⟨Prod.ext rfl h, fun id hid => absurd hid (hsilent rfl id)⟩
  | job | queued | inspected => exact .inl ⟨rfl, fun id hid => absurd hid (hsilent rfl id)⟩

/-- **Everyone who has written is on the list.** While the statements succeed, the table is that from before and who
has written since, and all of these are in memory; and all of the table is, unless nobody was new. -/
theorem writers_listed (h : Enlisted w.sh.roll) (ds : List Deed)
    (hserves : ∀ before d after, ds = before ++ d :: after → d.Serves (w.lived cfg before)) :
    let s := (w.lived cfg ds).sh
    (s.roll = w.sh.roll ∨ s.vConsumers = s.consumerIds) ∧
      (∀ id, id ∈ s.consumerIds ↔ id ∈ w.sh.consumerIds ∨ ∃ d ∈ ds, d.WrittenBy id) ∧
      ∀ d ∈ ds, ∀ id, d.WrittenBy id → id ∈ s.vConsumers := by
  induction ds using List.reverseRecOn with
  | nil => simp [World.lived]
  | append_singleton ds d ih =>
    intro s
    obtain ⟨hbefore, hnow⟩ := forall_split_concat.mp hserves
    obtain ⟨hroll, hids, hlisted⟩ := ih hbefore
    have henlisted : Enlisted (w.lived cfg ds).sh.roll :=
      World.lived_enlisted h ds fun before e after hds => (hbefore before e after hds).keepsKey
    have hs : s.roll = d.roll (w.lived cfg ds) := by
      show (w.lived cfg (ds ++ [d])).sh.roll = _
      rw [World.lived_concat, Deed.after_roll]
    have hwrote (id : Int) : (∃ e ∈ ds ++ [d], e.WrittenBy id) ↔ (∃ e ∈ ds, e.WrittenBy id) ∨ d.WrittenBy id := by
      simp only [List.mem_append, List.mem_singleton, or_and_right, exists_or, exists_eq_left]
    rcases Deed.roll_serves hnow with ⟨hsame, hknown⟩ | ⟨hall, hmore⟩
    · rw [← hs] at hsame
      have hlist : s.vConsumers = (w.lived cfg ds).sh.vConsumers := congrArg Prod.fst hsame
      have htable : s.consumerIds = (w.lived cfg ds).sh.consumerIds := congrArg (fun r : Roll => r.2.map Prod.fst) hsame
      refine ⟨?_, fun id => ?_, ?_⟩
      · rw [hsame, hlist, htable]
        exact hroll
      · have hearlier (hid : d.WrittenBy id) : id ∈ w.sh.consumerIds ∨ ∃ e ∈ ds, e.WrittenBy id :=
          (hids id).mp (henlisted.subset (hknown id hid))
        rw [htable, hids id, hwrote id, ← or_assoc, or_iff_left_of_imp hearlier]
      · rw [hlist]
        intro e he id hid
        rcases List.mem_append.mp he with he | he
        · exact hlisted e he id hid
        · exact hknown id (List.mem_singleton.mp he ▸ hid)
    · rw [← hs] at hall
      have hall : s.vConsumers = s.consumerIds := hall
      have hin (id : Int) : id ∈ s.consumerIds ↔ id ∈ (w.lived cfg ds).sh.consumerIds ∨ d.WrittenBy id := by
        rw [← hall, ← hmore id, ← hs]
        rfl
      refine ⟨.inr hall, fun id => ?_, ?_⟩
      · rw [hin id, hids id, hwrote id, or_assoc]
      · rw [hall]
        intro e he id hid
        rw [hin id]
        rcases List.mem_append.mp he with he | he
        · exact .inl (henlisted.subset (hlisted e he id hid))
        · exact .inr (List.mem_singleton.mp he ▸ hid)

end

/-- A row from before, and a list that was not read. -/
def lost3 : World := {sh := {db := {consumers := [(3, of "ivan")]}}}

/-- The key of the table keeps a row out. -/
def keptOut : UpdateEnv := {UpdateEnv.calm 0 with dispatcher := ⟨.returns false, .returns true, .returns true⟩}

/-- 3, who has a row, and 5 write. -/
def written35 : List Deed := [.update keptOut (startFrom 3), .update (.calm 0) (startFrom 5)]

theorem lost3_enlisted : Enlisted lost3.sh.roll := ⟨by decide +kernel, List.nil_prefix⟩

theorem written35_serves :
    ∀ before d after, written35 = before ++ d :: after → Deed.Serves (lost3.lived {} before) d := by
  have hnone : ∀ before d after, ([] : List Deed) = before ++ d :: after → d.Serves (lost3.lived {} before) := by simp
  have hfirst : (Deed.update keptOut (startFrom 3)).Serves lost3 := by
    rintro user ⟨⟩ -
    exact ⟨by decide +kernel, trivial, rfl⟩
  have hsecond : (Deed.update (.calm 0) (startFrom 5)).Serves (lost3.lived {} [.update keptOut (startFrom 3)]) := by
    rintro user ⟨⟩ -
    exact ⟨by decide +kernel, trivial, rfl⟩
  exact (forall_split_concat (l := [_])).mpr ⟨(forall_split_concat (l := [])).mpr ⟨hnone, hfirst⟩, hsecond⟩

/-- Both are on the list. -/
theorem writers_listed_35 : (lost3.lived {} written35).sh.vConsumers = [3, 5] ∧
    ∀ d ∈ written35, ∀ id, d.WrittenBy id → id ∈ (lost3.lived {} written35).sh.vConsumers :=
  ⟨by decide +kernel, (writers_listed lost3_enlisted written35 written35_serves).2.2⟩

/-- Neither is on it when the bot has started again without its list, but both are in the table. -/
theorem consumers_registered_35 : (lost3.lived {} (written35 ++ [.restart {}])).sh.consumerIds = [3, 5] ∧
    (lost3.lived {} (written35 ++ [.restart {}])).sh.consumerIds.Nodup := by
  have hrestart (w : World) : (Deed.restart {}).KeepsKey w := .inl rfl
  have hkeys : ∀ before d after, written35 ++ [.restart {}] = before ++ d :: after →
      Deed.KeepsKey (lost3.lived {} before) d :=
    forall_split_concat.mpr ⟨fun before d after hds => (written35_serves before d after hds).keepsKey, hrestart _⟩
  have hregistered := consumers_registered lost3_enlisted (written35 ++ [.restart {}]) hkeys
  exact ⟨by decide +kernel, hregistered.1⟩

end Chanserv
