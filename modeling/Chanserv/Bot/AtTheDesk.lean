import Chanserv.Bot.Contractor
import Chanserv.Bot.Threads

/-! What an update of a contractor does at his desk.

Clicks under the messages of the list, on the menu, and /start: each is one move of
`Desk`, as `callback_seated` and `start_seated` show from any state. -/
namespace Chanserv
open Text Program

/-! ### The list -/

/-- The number Telegram gives the `i`-th message of a list. -/
def MyIssuesEnv.sentId (env : MyIssuesEnv) (i : Nat) : Int :=
  match env.show_ i with
  | .returns sent => sent.messageId
  | .throws _ => 0

/-- The messages of a list of so many issues. -/
def MyIssuesEnv.sentIds (env : MyIssuesEnv) (count : Nat) : List Int := (List.range count).map env.sentId

section
variable {cfg : Config} {env : CallbackEnv} {q : CallbackQuery} {d : Desk} {c c' : Chat} {w : World}

theorem sentIds_succ (env : MyIssuesEnv) (k : Nat) : env.sentIds (k + 1) = env.sentIds k ++ [env.sentId k] := by
  rw [MyIssuesEnv.sentIds, List.range_succ, List.map_append, MyIssuesEnv.sentIds]
  rfl

instance (receiver : Int) (issue : PgdbIssue) (r : Sending) :
    Frames Shared.edits (sendIssue receiver issue r) := by
  unfold sendIssue
  split <;> exact frames_call rfl r

/-- An issue sent is one more of the list. -/
theorem Seated.remember {shown : List Int} (h : Seated ⟨0, shown⟩ c.ud) (issue : PgdbIssue) (sent : Sent) :
    Seated ⟨0, shown ++ [sent.messageId]⟩ (rememberIssue issue sent c.ud) := by
  constructor
  · exact h.clicked
  · exact congrArg (· ++ [sent.messageId]) h.shown
  · have hmsgs := h.msgs
    simp only [rememberIssue, List.map_append, List.map_cons, List.map_nil, hmsgs]
  · have hissues := h.issues
    simp only [rememberIssue, List.map_append, List.map_cons, List.map_nil, hissues]

/-- One round of the list, whatever number it has. -/
theorem round_seated (henv : env.Delivers) (receiver : Int) (i : Nat) (issue : PgdbIssue)
    (h : SeatedAt ⟨0, env.myIssues.sentIds i⟩ [] c c') :
    wp (do
      let sent ← service (sendIssue receiver issue (env.myIssues.show_ i))
      modifySession (rememberIssue issue sent))
      (fun _ => SeatedAt ⟨0, env.myIssues.sentIds (i + 1)⟩ [] c) (fun _ _ => False) c' := by
  obtain ⟨sent, hsent, -⟩ := henv.shown i
  have hid : env.myIssues.sentId i = sent.messageId := by rw [MyIssuesEnv.sentId, hsent]
  have hcall (e : Effect) (he : e.isEdit = false) :
      wp (call e (env.myIssues.show_ i)) (fun sent sh => SeatedAt ⟨0, env.myIssues.sentIds (i + 1)⟩ [] c
        ⟨rememberIssue issue sent c'.ud, sh⟩) (fun _ _ => False) c'.sh := by
    rw [wp_call, hsent]
    constructor
    · rintro _ ⟨rfl⟩
      rw [sentIds_succ, hid]
      exact ⟨h.seated.remember issue sent, (Shared.edits_log he _).trans h.edits⟩
    · rintro x ⟨⟩
  rw [wp_bind, wp_service]
  unfold sendIssue
  split <;> exact hcall _ rfl

theorem showRows_seated (henv : env.Delivers) (receiver : Int) (rows : List IssueRow)
    (h : SeatedAt d [] c c') (hzero : d.clicked = 0) :
    wp (showRows cfg env.myIssues receiver rows)
      (fun _ => SeatedAt ⟨0, env.myIssues.sentIds rows.length⟩ [] c) (fun _ _ => False) c' := by
  rw [showRows, wp_bind, wp_modifySession, wp_bind]
  have hempty : SeatedAt ⟨0, env.myIssues.sentIds 0⟩ [] c ⟨forgetIssues c'.ud, c'.sh⟩ :=
    ⟨⟨h.seated.clicked.trans hzero, rfl, rfl, rfl⟩, h.edits⟩
  have hround (row : IssueRow) (i : Nat) (c₂ : Chat) (h₂ : SeatedAt ⟨0, env.myIssues.sentIds i⟩ [] c c₂) :=
    round_seated henv receiver i (issueOfRow (i + 1) row) h₂
  refine wp_mono (wp_forEach_zipIdx hround hempty) (fun _ c₂ h₂ => ?_) fun _ _ hf => hf.elim
  rw [Nat.zero_add] at h₂
  rw [wp_guarded]
  constructor
  · rintro -
    rw [wp_bind, wp_service, wp_call]
    constructor
    · intro _ _
      rw [wp_guarded]
      constructor
      · rintro -
        rw [wp_bind, wp_service, wp_call]
        constructor
        · intro _ _
          exact ⟨h₂.seated, (Shared.edits_log rfl _).trans ((Shared.edits_log rfl _).trans h₂.edits)⟩
        · intro x hx
          exact (henv.sticker.not_throws hx).elim
      · rintro -
        exact ⟨h₂.seated, (Shared.edits_log rfl _).trans h₂.edits⟩
    · intro x hx
      exact (henv.noTasks.not_throws hx).elim
  · rintro -
    exact h₂

/-- The list shown is of the contractor's rows, and nothing is clicked yet. -/
theorem showMyIssues_seated (henv : env.Delivers) (hzero : d.clicked = 0) (receiver : Int)
    (h : SeatedAt d [] c c') :
    wp (showMyIssues cfg env.myIssues receiver)
      (fun _ => SeatedAt ⟨0, env.myIssues.sentIds (myRows env.myIssues c'.sh.db receiver).length⟩ [] c)
      (fun _ _ => True) c' := by
  have hlog : SeatedAt d [] c {c' with sh := c'.sh.log .selectRows} :=
    ⟨h.seated, (Shared.edits_log rfl _).trans h.edits⟩
  have hrows (rows : List IssueRow) :
      wp (showRows cfg env.myIssues receiver rows)
        (fun _ => SeatedAt ⟨0, env.myIssues.sentIds rows.length⟩ [] c) (fun _ _ => True)
        {c' with sh := c'.sh.log .selectRows} :=
    wp_mono (showRows_seated henv receiver rows hlog hzero) (fun _ _ hs => hs) fun _ _ _ => trivial
  rw [showMyIssues, wp_bind, wp_service, wp_select]
  refine ⟨fun hr => ?_, fun hr => ?_, fun _ _ => trivial⟩
  · rw [myRows, if_pos hr]
    exact hrows _
  · rw [myRows, hr, if_neg (by decide)]
    exact hrows _

end

/-! ### Clicks -/

/-- The desk after an update, and the keyboards edited by it. -/
structure World.SeatedAt (w : World) (me : Int) (d : Desk) (es : List Effect) (w' : World) : Prop where
  seated : w'.Seated me d
  edits : w'.sh.edits = w.sh.edits ++ es

/-- The move a button stands for, under a message of this number. -/
def moveOfButton (m : Int) (sent : List Int) : Button → Option Move
  | .myTasks => some (.list m sent)
  | .newTask | .newFamily => some (.dialog m)
  | .startSolving => some (.solve m)
  | .taskClosing => some (.close m)
  | _ => none

section
variable {cfg : Config} {env : CallbackEnv} {q : CallbackQuery} {now me : Int} {d : Desk} {es : List Effect}
  {c c' : Chat} {w w₁ w' : World} {mv : Move} {sent : List Int}

theorem World.At.seated_iff (hat : w.At me c) : w.Seated me d ↔ Chanserv.Seated d c.ud := by
  rw [World.Seated, hat.session]
  rfl

theorem World.At.edits (hat : w.At me c) : w.sh.edits = c.sh.edits := by
  obtain ⟨-, -, -, hsh⟩ := hat
  rw [hsh]

/-- What was seated in the chat is seated in the world. -/
theorem SeatedAt.world (h : SeatedAt d es c c') (hat : w'.At me c') (hedits : c.sh.edits = w.sh.edits) :
    w.SeatedAt me d es w' :=
  ⟨hat.seated_iff.mpr h.seated, hat.edits.trans (h.edits.trans (congrArg (· ++ es) hedits))⟩

theorem Seated.touch (h : Seated d c.ud) (now : Int) : Seated d (c.touch now).ud := h.of_tray rfl

theorem SeatedAt.touch (h : SeatedAt d es c c') (now : Int) : SeatedAt d es c (c'.touch now) :=
  ⟨h.seated.touch now, h.edits⟩

instance (text : Text) (kb : Keyboard) (parseMode : Text) (r : Sending) :
    Frames Chat.tray (say q text kb parseMode r) := by
  have hcall := frames_call (e := .sendMessage (.user q.chat.id) text kb parseMode) rfl r
  unfold say
  infer_instance

/-- A click that may open a dialog. -/
theorem openDialog_seated {f : NewTask → NewTask} {prompt parseMode : Text} {stat : Nat}
    (hat : w₁.At q.from_.id c) (hsh : c.sh = w.sh) (h : Seated d c.ud) :
    wp (openDialog q now f (askFirst env q now prompt parseMode stat))
      (fun _ => w.SeatedAt q.from_.id (d.next (.dialog q.messageId)) [])
      (fun _ => w.SeatedAt q.from_.id (d.next (.dialog q.messageId)) []) w₁ := by
  have hedits : c.sh.edits = w.sh.edits := congrArg Shared.edits hsh
  rw [openDialog]
  refine wp_ownSession hat now fun w₂ hat₂ _ => ?_
  rw [wp_bind]
  refine wp_onSession hat₂ (wp_mono (spendMenu_seated (h.touch now) f) ?_ fun _ _ hf => hf.elim)
  rintro spent c₃ ⟨h₃, -, -⟩ w₃ hat₃ -
  rw [wp_guarded]
  constructor
  · rintro -
    rw [askFirst]
    refine wp_ownSession hat₃ now fun w₄ hat₄ _ => wp_onSession hat₄ ?_
    refine wp_mono ((h₃.touch now).after inferInstance) ?_ ?_
    · intro _ c₅ h₅ w₅ hat₅ _
      exact h₅.world hat₅ hedits
    · intro _ c₅ h₅ w₅ hat₅ _
      exact h₅.world hat₅ hedits
  · rintro -
    exact h₃.world hat₃ hedits

theorem onMyTasks_seated (henv : env.Delivers) (hat : w₁.At q.from_.id c) (hsh : c.sh = w.sh)
    (h : Seated d c.ud) :
    wp (onMyTasks cfg env q now)
      (fun _ => w.SeatedAt q.from_.id (d.next (.list q.messageId
        (env.myIssues.sentIds (myRows env.myIssues w.sh.db q.from_.id).length))) [])
      (fun stop _ => stop.fatal = true) w₁ := by
  have hedits : c.sh.edits = w.sh.edits := congrArg Shared.edits hsh
  rw [onMyTasks, wp_bind]
  refine wp_onSession hat (wp_mono (spendMenu_seated h id) ?_ fun _ _ hf => hf.elim)
  rintro spent c₂ ⟨h₂, hsh₂, hspent⟩ w₂ hat₂ -
  rw [wp_guarded]
  constructor
  · intro hs
    have hclicked := hspent.mp hs
    rw [Desk.next, if_pos hclicked] at h₂
    rw [Desk.next, if_pos hclicked, wp_inThread, getMyIssues]
    refine wp_ownSession hat₂ now fun w₃ hat₃ _ => wp_onSession hat₃ ?_
    refine wp_mono (showMyIssues_seated henv rfl q.from_.id (h₂.touch now)) ?_ ?_
    · intro _ c₄ h₄ w₄ hat₄ _
      have hdb : (c₂.touch now).sh.db = w.sh.db := congrArg Shared.db (hsh₂.trans hsh)
      rw [hdb] at h₄
      exact h₄.world hat₄ hedits
    · intro stop _ _ _ _ _
      cases stop <;> rfl
  · intro hs
    have hclicked : d.clicked ≠ q.messageId := fun hd => hs (hspent.mpr hd)
    rw [Desk.next, if_neg hclicked] at h₂
    rw [Desk.next, if_neg hclicked]
    exact h₂.world hat₂ hedits

/-- What the handlers of clicks end in: the next desk, unless the process is gone. Only a list may
end it. -/
def Presses (w : World) (me : Int) (d : Desk) (es : List Effect) (b : Button) (m : BotM Unit) (w₁ : World) :
    Prop :=
  wp m (fun _ => w.SeatedAt me d es)
    (fun stop w' => stop.fatal = false ∨ b ≠ .myTasks → w.SeatedAt me d es w') w₁

/-- A handler on the session alone. -/
theorem Presses.of_chat {b : Button} {m : ChatM Unit} (hat : w₁.At me c) (hsh : c.sh = w.sh)
    (h : wp m (fun _ => SeatedAt d es c) (fun _ => SeatedAt d es c) c) :
    Presses w me d es b (onSession m) w₁ := by
  have hedits : c.sh.edits = w.sh.edits := congrArg Shared.edits hsh
  refine wp_onSession hat (wp_mono h ?_ ?_)
  · intro _ c' hc w' hat' _
    exact hc.world hat' hedits
  · intro _ c' hc w' hat' _ _
    exact hc.world hat' hedits

theorem pressButton_seated {b : Button} (henv : env.Delivers) (hat : w₁.At q.from_.id c) (hsh : c.sh = w.sh)
    (h : Seated d c.ud) {issue : Option PgdbIssue} (hissue : issue.isSome ↔ q.messageId ∈ d.shown)
    (hmv : moveOfButton q.messageId (env.myIssues.sentIds (myRows env.myIssues w.sh.db q.from_.id).length) b =
      some mv) :
    Presses w q.from_.id (d.next mv) (editsOf d q mv) b (pressButton cfg env q now issue b) w₁ := by
  cases b with
  | myTasks =>
    obtain rfl := Option.some.inj hmv
    refine wp_mono (onMyTasks_seated henv hat hsh h) (fun _ _ hs => hs) ?_
    rintro stop _ hfatal (halive | hother)
    · exact absurd (hfatal.symm.trans halive) (by decide)
    · exact absurd rfl hother
  | newTask =>
    obtain rfl := Option.some.inj hmv
    exact wp_mono (openDialog_seated hat hsh h) (fun _ _ hs => hs) fun _ _ hs _ => hs
  | newFamily =>
    obtain rfl := Option.some.inj hmv
    exact wp_mono (openDialog_seated hat hsh h) (fun _ _ hs => hs) fun _ _ hs _ => hs
  | startSolving =>
    obtain rfl := Option.some.inj hmv
    refine .of_chat hat hsh ?_
    cases issue with
    | none =>
      have hno : ¬d.Solves q.messageId := fun hs => by cases hissue.mpr hs.1
      rw [Desk.next, if_neg hno, editsOf, if_neg hno]
      exact .refl h
    | some issue => exact onStartSolving_seated henv h (hissue.mp rfl) issue
  | taskClosing =>
    obtain rfl := Option.some.inj hmv
    refine .of_chat hat hsh ?_
    cases issue with
    | none =>
      have hno : ¬d.Closes q.messageId := fun hs => by cases hissue.mpr hs.1
      rw [Desk.next, if_neg hno, editsOf, if_neg hno]
      exact .refl h
    | some issue => exact onTaskClosing_seated henv h (hissue.mp rfl) issue
  | _ => cases hmv

/-- Where there is no session, no click does anything. -/
theorem Desk.next_absent {b : Button} (hq : q.messageId ≠ 0) (hmv : moveOfButton q.messageId sent b = some mv) :
    ({} : Desk).next mv = {} ∧ editsOf {} q mv = [] := by
  have hshown : q.messageId ∉ ({} : Desk).shown := List.not_mem_nil
  cases b with
  | myTasks | newTask | newFamily =>
    obtain rfl := Option.some.inj hmv
    rw [Desk.next, if_neg (Ne.symm hq)]
    exact ⟨rfl, rfl⟩
  | startSolving =>
    obtain rfl := Option.some.inj hmv
    rw [Desk.next, if_neg fun hs => hshown hs.1, editsOf, if_neg fun hs => hshown hs.1]
    exact ⟨rfl, rfl⟩
  | taskClosing =>
    obtain rfl := Option.some.inj hmv
    rw [Desk.next, if_neg fun hs => hshown hs.1, editsOf, if_neg fun hs => hshown hs.1]
    exact ⟨rfl, rfl⟩
  | _ => cases hmv

/-- Buttons that move something at the desk are open to everyone. -/
theorem moveOfButton_open {b : Button} (hmv : moveOfButton q.messageId sent b = some mv) :
    roleForCallback b.data = .anyone ∧ ¬(isApprove b.data ∨ isReject b.data) := by
  cases b with
  | myTasks | newTask | newFamily | startSolving | taskClosing => decide
  | _ => cases hmv

/-- **A click** on one of the five buttons is a move at the desk. -/
theorem callback_seated {b : Button} (henv : env.Delivers) (hq : q.messageId ≠ 0) (hb : buttonOf q.data = some b)
    (hmv : moveOfButton q.messageId (env.myIssues.sentIds (myRows env.myIssues w.sh.db q.from_.id).length) b =
      some mv) (h : w.Seated q.from_.id d) :
    Presses w q.from_.id (d.next mv) (editsOf d q mv) b (onCallbackQuery cfg env q now) w := by
  obtain ⟨hrole, hkey⟩ := moveOfButton_open hmv
  rw [← data_of_buttonOf hb] at hrole hkey
  refine wp_ownClick hkey (fun hn => absurd (hrole ▸ isAllowed_anyone _ _) hn) ?_
  rw [ownCallback]
  refine wp_inSession _ _ (fun hs => ?_) fun u hu w₂ hat₂ _ => ?_
  · rw [World.Seated, hs] at h
    obtain rfl : d = {} := h
    obtain ⟨hnext, hedits⟩ := Desk.next_absent hq hmv
    rw [hnext, hedits]
    refine ⟨?_, (List.append_nil _).symm⟩
    show (({w with uD := none} : World).session q.from_.id).elim _ _
    exact hs ▸ rfl
  · rw [World.Seated, hu] at h
    have htouch : Seated d ((⟨u, w.sh⟩ : Chat).touch now).ud := Seated.touch (c := ⟨u, w.sh⟩) h now
    obtain ⟨issue, hissue, hshown⟩ := htouch.selected (c := (⟨u, w.sh⟩ : Chat).touch now) q.messageId
    rw [wp_bind]
    refine wp_onSession hat₂ ?_
    rw [clickedIssue, wp_bind, wp_get, hissue, wp_pure]
    intro w₃ hat₃ _
    rw [hb]
    exact pressButton_seated henv hat₃ rfl htouch hshown hmv

end

/-! ### The command -/

/-- The session of a user is removed by the next cleanup, and one is due. -/
def World.Expires (w : World) (cfg : Config) (now me : Int) : Prop :=
  cleanupPeriod ≤ now - w.mLastSessionsCleanup ∧
    ∃ u ∈ w.session me, SessionStore.idle now (sessionTtl cfg) u = true

instance (w : World) (cfg : Config) (now me : Int) : Decidable (w.Expires cfg now me) :=
  inferInstanceAs (Decidable (_ ∧ _))

/-- Both messages of /start are delivered, and the menu has a number. -/
structure CommandEnv.Delivers (env : CommandEnv) : Prop where
  greeting : env.greeting.Normal
  menu : ∃ sent, env.menu = .returns sent ∧ sent.messageId ≠ 0

def CommandEnv.menuId (env : CommandEnv) : Int :=
  match env.menu with
  | .returns sent => sent.messageId
  | .throws _ => 0

section
variable {cfg : Config} {env : CommandEnv} {denv : DispatcherEnv} {m : Message} {now me : Int} {d : Desk}
  {es : List Effect} {c c' : Chat} {w w₁ w' : World}

instance (user : TgUser) : Frames Shared.edits (addConsumerToDb denv user) :=
  .addsConsumer (frames_edits rfl) (frames_edits rfl) (fun _ _ => rfl) denv

instance (r : Answer Bool) : Frames Shared.edits (reloadConsumersList r) :=
  .reloadsConsumers (frames_edits rfl) (fun _ _ => rfl) r

/-- A cleanup takes the session where it expires. -/
theorem evictIdleSessions_session (me : Int) {E : Stop → World → Prop} :
    wp (evictIdleSessions cfg now)
      (fun _ w₁ => (w.Expires cfg now me → w₁.session me = none) ∧
        (¬w.Expires cfg now me → w₁.session me = w.session me) ∧ w₁.sh = w.sh) E w := by
  rw [evictIdleSessions, wp_bind, wp_get, wp_guarded]
  constructor
  · intro hdue
    rw [wp_bind, wp_modify, wp_modify]
    have hsession := SessionStore.session_evictIdle w.mSessions now (sessionTtl cfg) me
    refine ⟨?_, ?_, rfl⟩
    · rintro ⟨-, u, hu, hidle⟩
      refine hsession.trans ?_
      rw [show w.mSessions.session me = some u from hu, Option.filter_some, hidle]
      rfl
    · intro hstays
      refine hsession.trans ?_
      cases hu : w.mSessions.session me with
      | none => exact hu.symm
      | some u =>
        have hbusy : SessionStore.idle now (sessionTtl cfg) u = false :=
          eq_false_of_ne_true fun hidle => hstays ⟨hdue, u, hu, hidle⟩
        rw [Option.filter_some, hbusy]
        exact hu.symm
  · intro hearly
    exact ⟨fun hx => absurd hx.1 hearly, fun _ => rfl, rfl⟩

/-- The session a message comes to: that of its user unless a cleanup takes it, or a new one. -/
def World.arrival (w : World) (cfg : Config) (now : Int) (m : Message) : UserDispatcher :=
  (if w.Expires cfg now m.from_.id then none else w.session m.from_.id).elim (m.newSession now) fun u =>
    {u with lastActivity := now}

/-- The dispatcher finds the session of who sent the message, or makes one; what its statements keep stays. -/
theorem sessionDispatcher_arrives {β : Type} (view : Shared → β)
    [hload : Frames view (do addConsumerToDb denv m.from_; reloadConsumersList denv.selectConsumers)] :
    wp (sessionDispatcher cfg denv now m)
      (fun _ w' => w'.At m.from_.id ⟨w.arrival cfg now m, w'.sh⟩ ∧ view w'.sh = view w.sh)
      (fun _ w' => w'.mSessions = w.mSessions ∧ view w'.sh = view w.sh) w := by
  have hrest {create : World → World} (hcreate : ∀ w : World, create w = {w with
      uD := some (w.mSessions.create m.from_.id m.from_.username m.from_.firstName now).1,
      mSessions := (w.mSessions.create m.from_.id m.from_.username m.from_.firstName now).2})
      (sh : Shared) (hsh : view sh = view w.sh) {E : Stop → World → Prop} :
      wp (do
        evictIdleSessions cfg now
        let found ← selectSession now m.from_.id
        guarded (found = false) (modify create))
        (fun _ w' => w'.At m.from_.id ⟨w.arrival cfg now m, w'.sh⟩ ∧ view w'.sh = view w.sh) E {w with sh} := by
    rw [wp_bind]
    refine wp_mono (evictIdleSessions_session m.from_.id) ?_ fun _ _ hs => hs
    rintro _ w₁ ⟨hgone, hstays, hsh₁⟩
    have hleft : w₁.session m.from_.id = if w.Expires cfg now m.from_.id then none else w.session m.from_.id := by
      by_cases hx : w.Expires cfg now m.from_.id
      · rw [if_pos hx, hgone hx]
      · rw [if_neg hx, hstays hx]
        rfl
    have hdone {w₂ : World} {u : UserDispatcher} (hat₂ : w₂.At m.from_.id ⟨u, w₁.sh⟩) (hu : w.arrival cfg now m = u) :
        w₂.At m.from_.id ⟨w.arrival cfg now m, w₂.sh⟩ ∧ view w₂.sh = view w.sh := by
      rw [hu]
      refine ⟨hat₂.eta, ?_⟩
      obtain ⟨-, -, -, hsh₂⟩ := hat₂
      exact (congrArg view (hsh₂.trans hsh₁)).trans hsh
    refine wp_findOrCreate hcreate (fun hs w₂ hat₂ _ => hdone hat₂ ?_) fun u hu w₂ hat₂ _ => hdone hat₂ ?_
    · rw [World.arrival, ← hleft, hs, Option.elim_none]
    · rw [World.arrival, ← hleft, hu, Option.elim_some]
  rw [sessionDispatcher, wp_bind, wp_get, wp_bind, wp_guarded]
  constructor
  · intro _
    rw [serviceBot, wp_zoom]
    exact wp_mono (hload.keeps w.sh) (fun _ sh hsh => hrest (fun _ => rfl) sh hsh) fun _ _ hsh => ⟨rfl, hsh.2⟩
  · intro _
    exact hrest (fun _ => rfl) w.sh rfl

/-- The desk after a cleanup. -/
def World.deskLeft (w : World) (cfg : Config) (now me : Int) (d : Desk) : Desk :=
  if w.Expires cfg now me then {} else d

theorem World.Seated.arrival (h : w.Seated m.from_.id d) :
    Chanserv.Seated (w.deskLeft cfg now m.from_.id d) (w.arrival cfg now m) := by
  unfold World.deskLeft World.arrival
  split
  case isTrue => exact ⟨rfl, rfl, rfl, rfl⟩
  case isFalse =>
    unfold World.Seated at h
    cases hu : w.session m.from_.id with
    | none =>
      rw [hu] at h
      obtain rfl : d = {} := h
      exact ⟨rfl, rfl, rfl, rfl⟩
    | some u =>
      rw [hu] at h
      exact Chanserv.Seated.touch (c := ⟨u, w.sh⟩) h now

/-- The dispatcher finds the session of who sent the message, or makes one with empty lists. -/
theorem sessionDispatcher_seated (hm : m.from_.id = me) (h : w.Seated me d) :
    wp (sessionDispatcher cfg denv now m)
      (fun _ w₁ => ∃ c, w₁.At me c ∧ Seated (w.deskLeft cfg now me d) c.ud ∧ c.sh.edits = w.sh.edits)
      (fun _ => w.SeatedAt me d []) w := by
  subst hm
  refine wp_mono (sessionDispatcher_arrives Shared.edits) ?_ ?_
  · rintro _ w₁ ⟨hat, hedits⟩
    exact ⟨_, hat, h.arrival, hedits⟩
  · rintro _ w₁ ⟨hs, hedits⟩
    refine ⟨?_, hedits.trans (List.append_nil _).symm⟩
    rw [World.Seated, World.session, hs]
    exact h

/-- The menu makes the message it sends the last one. -/
theorem startMenu_seated (henv : env.Delivers) (h : Seated d c.ud) :
    wp (startMenu cfg env m) (fun _ => SeatedAt {d with clicked := env.menuId} [] c) (fun _ _ => False) c := by
  have hmenu (prompt : Text) (kb : Keyboard) (sh : Shared) (hsh : sh.edits = c.sh.edits) :
      wp (sendMenu env m prompt kb) (fun _ => SeatedAt {d with clicked := env.menuId} [] c)
        (fun _ _ => False) {c with sh} := by
    obtain ⟨sent, hsent, -⟩ := henv.menu
    rw [sendMenu, wp_bind, wp_service, wp_call, CommandEnv.menuId, hsent]
    constructor
    · rintro _ ⟨rfl⟩
      rw [wp_modifySession]
      exact ⟨h.click sent.messageId, ((Shared.edits_log rfl sh).trans hsh).trans (List.append_nil _).symm⟩
    · rintro x ⟨⟩
  rw [startMenu, wp_ite]
  constructor
  · intro _
    exact hmenu _ _ _ rfl
  · intro _
    rw [wp_bind, wp_service, wp_call]
    constructor
    · intro _ _
      have hlog (e : Effect) (he : e.isEdit = false) := Shared.edits_log he c.sh
      simp only [wp_bind, wp_get, wp_ite]
      refine ⟨fun _ => hmenu _ _ _ (hlog _ rfl), fun _ => ⟨fun _ => hmenu _ _ _ (hlog _ rfl), fun _ => ?_⟩⟩
      exact hmenu _ _ _ (hlog _ rfl)
    · intro x hx
      exact (henv.greeting.not_throws hx).elim

theorem onStart_seated (henv : env.Delivers) (hat : w₁.At m.from_.id c) (hedits : c.sh.edits = w.sh.edits)
    (h : Seated d c.ud) :
    wp (onCommand cfg env now m .start) (fun _ => w.SeatedAt m.from_.id {d with clicked := env.menuId} [])
      (fun _ _ => False) w₁ := by
  rw [onCommand]
  refine wp_ownSession hat now fun w₂ hat₂ _ => ?_
  rw [wp_bind]
  refine wp_onSession hat₂ ((wp_modifyTask _).mpr fun w₃ hat₃ _ => ?_)
  rw [onStartCommand]
  refine wp_ownSession hat₃ now fun w₄ hat₄ _ => wp_onSession hat₄ ?_
  refine wp_mono (startMenu_seated  henv (d := d) ?_) ?_ fun _ _ hf => hf.elim
  · exact ⟨h.clicked, h.shown, h.msgs, h.issues⟩
  · intro _ c₅ h₅ w₅ hat₅ _
    exact h₅.world hat₅ hedits

/-- What /start is at the desk: nothing when the dispatcher fails. -/
def startMove (cfg : Config) (env : UpdateEnv) (w : World) (m : Message) : Option Move :=
  if Program.failure (sessionDispatcher cfg env.dispatcher env.now m) w = none then
    some (if w.Expires cfg env.now m.from_.id then .restart env.command.menuId
      else .menu env.command.menuId)
  else none

/-- **/start** is a move at the desk. -/
theorem start_seated {uenv : UpdateEnv} (henv : uenv.command.Delivers) (h : w.Seated m.from_.id d) :
    wp (handleUpdate cfg uenv (.command .start m))
      (fun _ => w.SeatedAt m.from_.id ((startMove cfg uenv w m).elim d d.next) [])
      (fun _ => w.SeatedAt m.from_.id ((startMove cfg uenv w m).elim d d.next) []) w := by
  rw [handleUpdate, wp_bind]
  refine wp_mono (wp_run (sessionDispatcher_seated rfl h)) ?_ ?_
  · rintro _ w₁ ⟨hrun, c, hat, hseated, hedits⟩
    have hmove : (startMove cfg uenv w m).elim d d.next =
        {w.deskLeft cfg uenv.now m.from_.id d with clicked := uenv.command.menuId} := by
      rw [startMove, Program.failure, hrun, if_pos rfl, World.deskLeft]
      by_cases hx : w.Expires cfg uenv.now m.from_.id
      · rw [if_pos hx, if_pos hx]
        rfl
      · rw [if_neg hx, if_neg hx]
        rfl
    rw [hmove]
    exact wp_mono (onStart_seated henv hat hedits hseated) (fun _ _ hs => hs) fun _ _ hf => hf.elim
  · rintro stop w₁ ⟨hrun, hseated⟩
    have hmove : startMove cfg uenv w m = none := by
      rw [startMove, Program.failure, hrun]
      rfl
    rw [hmove]
    exact hseated

end

end Chanserv
