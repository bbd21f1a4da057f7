import Chanserv.Bot.Desk
import Chanserv.Bot.Frames
import Chanserv.Bot.Handles

/-! A contractor's clicks, from the last menu and under the messages of his list.

What they do to his session is a move at his desk (`Desk.next`): the session is
`Seated` at the desk before the update and at the next one after it. Starts and ends
are accepted where the keyboard under the message is edited. -/
namespace Chanserv
open Text Program

/-! ### The session and the desk -/

def Effect.isEdit : Effect → Bool
  | .editMessageReplyMarkup .. => true
  | _ => false

/-- The keyboards edited so far. -/
def Shared.edits (s : Shared) : List Effect := s.trace.filter Effect.isEdit

/-- The lists of the session are those of the desk, and name an issue for each message. -/
structure Seated (d : Desk) (u : UserDispatcher) : Prop where
  clicked : u.clickedMsgId = d.clicked
  shown : u.recentMsgIds = d.shown
  msgs : u.recentMsgs.map MostRecentMsgs.msgId = u.recentMsgIds
  issues : u.recentMsgs.map MostRecentMsgs.msQueryRowId = u.pgdbIssues.map PgdbIssue.id

/-- The desk of a contractor; without a session it is empty. -/
def World.Seated (me : Int) (d : Desk) (w : World) : Prop :=
  (w.session me).elim (d = {}) (Chanserv.Seated d)

/-- What a session and the trace say about the desk. -/
def Chat.tray (c : Chat) : (Int × List Int) × (List MostRecentMsgs × List PgdbIssue) × List Effect :=
  ((c.ud.clickedMsgId, c.ud.recentMsgIds), (c.ud.recentMsgs, c.ud.pgdbIssues), c.sh.edits)

section
variable {d : Desk} {c c' : Chat}

theorem edits_of_tray (h : c'.tray = c.tray) : c'.sh.edits = c.sh.edits := congrArg (fun t => t.2.2) h

theorem Seated.of_tray (h : Seated d c.ud) (htray : c'.tray = c.tray) : Seated d c'.ud := by
  have hclicked : c'.ud.clickedMsgId = c.ud.clickedMsgId := congrArg (fun t => t.1.1) htray
  have hids : c'.ud.recentMsgIds = c.ud.recentMsgIds := congrArg (fun t => t.1.2) htray
  have hmsgs : c'.ud.recentMsgs = c.ud.recentMsgs := congrArg (fun t => t.2.1.1) htray
  have hissues : c'.ud.pgdbIssues = c.ud.pgdbIssues := congrArg (fun t => t.2.1.2) htray
  constructor
  · rw [hclicked]
    exact h.clicked
  · rw [hids]
    exact h.shown
  · rw [hmsgs, hids]
    exact h.msgs
  · rw [hmsgs, hissues]
    exact h.issues

theorem Seated.click (h : Seated d c.ud) (m : Int) :
    Seated {d with clicked := m} {c.ud with clickedMsgId := m} :=
  ⟨rfl, h.shown, h.msgs, h.issues⟩

/-- A message of the list, and no other, has an issue. -/
theorem Seated.selected (h : Seated d c.ud) (m : Int) :
    ∃ issue, getSelectedIssueId m c.ud.pgdbIssues c.ud.recentMsgIds c.ud.recentMsgs = some issue ∧
      (issue.isSome ↔ m ∈ d.shown) := by
  rw [← h.shown]
  unfold getSelectedIssueId
  cases hidx : c.ud.recentMsgIds.idxOf? m with
  | none =>
    have hnot := List.idxOf?_eq_none_iff.mp hidx
    exact ⟨none, rfl, by simp [hnot]⟩
  | some i =>
    obtain ⟨hi, hm, -⟩ := List.idxOf?_eq_some_iff.mp hidx
    have hlen : i < c.ud.recentMsgs.length := by
      rw [← h.msgs, List.length_map] at hi
      exact hi
    have hrow : c.ud.recentMsgs[i].msQueryRowId ∈ c.ud.pgdbIssues.map PgdbIssue.id := by
      rw [← h.issues]
      exact List.mem_map_of_mem (List.getElem_mem hlen)
    obtain ⟨issue, hissue, hid⟩ := List.mem_map.mp hrow
    dsimp only
    rw [List.getElem?_eq_getElem hlen]
    refine ⟨_, rfl, ?_⟩
    have hmem : m ∈ c.ud.recentMsgIds := hm ▸ List.getElem_mem hi
    have hfound : (c.ud.pgdbIssues.find? fun issue => issue.id = c.ud.recentMsgs[i].msQueryRowId).isSome := by
      rw [List.find?_isSome]
      exact ⟨issue, hissue, decide_eq_true hid⟩
    exact ⟨fun _ => hmem, fun _ => hfound⟩

end

/-! ### Programs that leave the desk alone -/

section
variable {α : Type} {cfg : Config}

theorem Shared.edits_log {e : Effect} (h : e.isEdit = false) (s : Shared) : (s.log e).edits = s.edits := by
  rw [Shared.edits, Shared.filter_log, h, if_neg Bool.false_ne_true, List.append_nil, Shared.edits]

theorem Shared.edits_edit (chat m : Int) (kb : Keyboard) (s : Shared) :
    (s.log (.editMessageReplyMarkup chat m kb)).edits = s.edits ++ [.editMessageReplyMarkup chat m kb] :=
  Shared.filter_log Effect.isEdit s _

theorem frames_edits {e : Effect} (h : e.isEdit = false) : Frames Shared.edits (log e) :=
  ⟨.writes (Shared.edits_log h)⟩

theorem frames_call {e : Effect} (h : e.isEdit = false) (r : Answer α) : Frames Shared.edits (call e r) :=
  (frames_edits h).calls r

theorem frames_statement {e : Effect} (h : e.isEdit = false) (r : Answer Bool) (f : Db → Db) :
    Frames Shared.edits (sql e r f) :=
  (frames_edits h).executes (fun _ => rfl) r

instance (card color : Text) (r : Answer Unit) : Frames Shared.edits (changeCardColor card color r) := by
  have hcall := frames_call (e := .changeCardColor card color) rfl r
  unfold changeCardColor
  infer_instance

instance (card : Text) (r : Answer Unit) : Frames Shared.edits (archivingCard card r) := by
  have hcall := frames_call (e := .archivingCard card) rfl r
  unfold archivingCard
  infer_instance

instance (card : Text) (r : Answer Bool) : Frames Shared.edits (deleteIssueFromDb card r) :=
  frames_statement rfl r _

instance {m : ServiceM α} [hm : Frames Shared.edits m] : Frames Chat.tray (service m) :=
  ⟨hm.keeps.zoom fun c sh hs => by rw [Chat.tray, Chat.tray, hs]⟩

instance (f : NewTask → NewTask) : Frames Chat.tray (modifyTask f) := ⟨.writes fun _ => rfl⟩

end

/-! ### The five buttons -/

/-- The session is seated, and these keyboards were edited since. -/
structure SeatedAt (d : Desk) (edits : List Effect) (c c' : Chat) : Prop where
  seated : Seated d c'.ud
  edits : c'.sh.edits = c.sh.edits ++ edits

section
variable {α : Type} {cfg : Config} {env : CallbackEnv} {q : CallbackQuery} {d : Desk} {es : List Effect} {c c' : Chat}

/-- What leaves the desk alone may follow. -/
theorem SeatedAt.after {m : ChatM α} (h : SeatedAt d es c c') (hm : Frames Chat.tray m) :
    wp m (fun _ => SeatedAt d es c) (fun _ => SeatedAt d es c) c' := by
  have hkeep (c₂ : Chat) (htray : c₂.tray = c'.tray) : SeatedAt d es c c₂ :=
    ⟨h.seated.of_tray htray, (edits_of_tray htray).trans h.edits⟩
  exact wp_mono (hm.keeps c') (fun _ c₂ => hkeep c₂) fun _ c₂ h₂ => hkeep c₂ h₂.2

theorem SeatedAt.refl (h : Seated d c.ud) : SeatedAt d [] c c := ⟨h, (List.append_nil _).symm⟩

/-- Every call to Telegram returns, and messages have numbers. -/
structure CallbackEnv.Delivers (env : CallbackEnv) : Prop where
  prompt : env.prompt.Normal
  editMarkup : env.editMarkup.Normal
  alert : env.alert.Normal
  staff : ∀ i, (env.staff i).Normal
  shown : ∀ i, ∃ sent, env.myIssues.show_ i = .returns sent ∧ sent.messageId ≠ 0
  noTasks : env.myIssues.noTasks.Normal
  sticker : env.myIssues.sticker.Normal

/-- The edit that shows a click accepted. -/
def editOf (q : CallbackQuery) (kb : Keyboard) : Effect := .editMessageReplyMarkup q.chat.id q.messageId kb

/-- What a click makes of the keyboards. -/
def editsOf (d : Desk) (q : CallbackQuery) : Move → List Effect
  | .solve m => if d.Solves m then [editOf q .taskClosing] else []
  | .close m => if d.Closes m then [editOf q .taskDone] else []
  | _ => []

theorem onStartSolving_seated (henv : env.Delivers) (h : Seated d c.ud) (hshown : q.messageId ∈ d.shown)
    (issue : PgdbIssue) :
    wp (onStartSolving env q issue)
      (fun _ => SeatedAt (d.next (.solve q.messageId)) (editsOf d q (.solve q.messageId)) c)
      (fun _ => SeatedAt (d.next (.solve q.messageId)) (editsOf d q (.solve q.messageId)) c) c := by
  rw [onStartSolving, wp_bind, wp_get, wp_guarded, editsOf, Desk.next]
  constructor
  · intro hzero
    have hsolves : d.Solves q.messageId := ⟨hshown, h.clicked.symm.trans hzero⟩
    have halert := frames_call (e := .answerCallbackQuery q.id (of
      "Вы приступили к выполнению задачи.\nПосле завершения задачи, задача будет недоступна, и отправится в архив"))
      rfl env.alert
    rw [if_pos hsolves, if_pos hsolves, wp_bind, wp_catchingTg, wp_bind, wp_service, wp_call]
    constructor
    · intro _ _
      rw [wp_modifySession]
      have hdone : SeatedAt {d with clicked := q.messageId} [editOf q .taskClosing] c
          ⟨{c.ud with clickedMsgId := q.messageId}, c.sh.log (editOf q .taskClosing)⟩ :=
        ⟨h.click q.messageId, Shared.edits_edit ..⟩
      exact hdone.after inferInstance
    · intro x hx
      exact (henv.editMarkup.not_throws hx).elim
  · intro hbusy
    have hno : ¬d.Solves q.messageId := fun hs => hbusy (h.clicked.trans hs.2)
    rw [if_neg hno, if_neg hno]
    exact .refl h

theorem onTaskClosing_seated (henv : env.Delivers) (h : Seated d c.ud) (hshown : q.messageId ∈ d.shown)
    (issue : PgdbIssue) :
    wp (onTaskClosing cfg env q issue)
      (fun _ => SeatedAt (d.next (.close q.messageId)) (editsOf d q (.close q.messageId)) c)
      (fun _ => SeatedAt (d.next (.close q.messageId)) (editsOf d q (.close q.messageId)) c) c := by
  rw [onTaskClosing, wp_bind, wp_get, wp_guarded, editsOf, Desk.next]
  constructor
  · intro hbusy
    have hcloses : d.Closes q.messageId := ⟨hshown, fun hzero => hbusy (h.clicked.trans hzero)⟩
    have halert := frames_call (e := .answerCallbackQuery q.id (of
      "Вы завершили задачу\nМожно приступать к выполнению следующей")) rfl env.alert
    have hdelete : Frames Shared.edits (deleteIssueFromDb issue.idCard env.deleteIssue) := frames_statement rfl _ _
    have hbeside : Frames Shared.edits (besideThread env.ahead
        (noticesToStaff cfg (closingNotice issue) .goDashboard env.staff)
        [ archivingCard issue.idCard env.archive,
          do let _ ← deleteIssueFromDb issue.idCard env.deleteIssue ]) :=
      .besideNotice (fun _ => frames_edits rfl)
        (List.forall_mem_cons.mpr ⟨inferInstance, List.forall_mem_singleton.mpr inferInstance⟩)
    rw [if_pos hcloses, if_pos hcloses, wp_bind, wp_service, wp_call]
    constructor
    · intro _ _
      rw [wp_bind, wp_modifySession]
      have hdone : SeatedAt {d with clicked := 0} [editOf q .taskDone] c
          ⟨{c.ud with clickedMsgId := 0}, c.sh.log (editOf q .taskDone)⟩ :=
        ⟨h.click 0, Shared.edits_edit ..⟩
      exact hdone.after inferInstance
    · intro x hx
      exact (henv.editMarkup.not_throws hx).elim
  · intro hzero
    have hno : ¬d.Closes q.messageId := fun hc => hzero fun hz => hc.2 (h.clicked.symm.trans hz)
    rw [if_neg hno, if_neg hno]
    exact .refl h

/-- A click on the last menu spends it. -/
theorem spendMenu_seated (h : Seated d c.ud) (f : NewTask → NewTask) :
    wp (spendMenu q f) (fun spent c' => SeatedAt (d.next (.dialog q.messageId)) [] c c' ∧ c'.sh = c.sh ∧
      (spent = true ↔ d.clicked = q.messageId)) (fun _ _ => False) c := by
  rw [spendMenu, wp_bind, wp_get, wp_ite, Desk.next]
  constructor
  · intro hclicked
    have hd : d.clicked = q.messageId := h.clicked.symm.trans hclicked
    rw [wp_bind, wp_modifySession, wp_pure, if_pos hd]
    exact ⟨⟨⟨rfl, h.shown, h.msgs, h.issues⟩, (List.append_nil _).symm⟩, rfl, fun _ => hd, fun _ => rfl⟩
  · intro hother
    have hd : d.clicked ≠ q.messageId := fun hd => hother (h.clicked.trans hd)
    rw [wp_pure, if_neg hd]
    exact ⟨.refl h, rfl, fun hn => (by cases hn), fun hn => absurd hn hd⟩

end

end Chanserv
