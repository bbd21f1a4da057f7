import Chanserv.Bot.AtTheDesk
import Chanserv.Bot.Run
import Chanserv.Program.Traces

/-! Starts and ends of a contractor, over runs.

What he knows is the last list he was sent, and the messages on which a start was
accepted since, and no end. Whether an end is accepted on a message just when it was
started depends on what he did before: `closings_iff` says what. -/
namespace Chanserv
open Text Program

/-- The messages of the contractor's last list, and those started since and not ended. -/
structure Known where
  listed : List Int := []
  started : List Int := []
deriving DecidableEq

namespace Handled

/-- The keyboards an update edited. -/
def edits (cfg : Config) (h : Handled) : List Effect :=
  (final (handleUpdate cfg h.env h.x) h.before).sh.edits.drop h.before.sh.edits.length

/-- The messages sent if the update shows a user his issues. -/
def list (me : Int) (h : Handled) : List Int :=
  let env := h.env.callback.myIssues
  env.sentIds (myRows env h.before.sh.db me).length

/-- The session of the user is removed. -/
def Evicts (cfg : Config) (me : Int) (h : Handled) : Prop :=
  (h.before.session me).isSome ∧ (final (handleUpdate cfg h.env h.x) h.before).session me = none

instance (cfg : Config) (me : Int) (h : Handled) : Decidable (h.Evicts cfg me) :=
  inferInstanceAs (Decidable (_ ∧ _))

/-- What an update is at the desk of a user. -/
def move (cfg : Config) (me : Int) (h : Handled) : Option Move :=
  if h.x.fromId = me then
    match h.x with
    | .callback q => (buttonOf q.data).bind (moveOfButton q.messageId (h.list me))
    | .command .start m => startMove cfg h.env h.before m
    | _ => none
  else if h.Evicts cfg me then some .evicted
  else none

/-- A contractor's update is one of six, Telegram delivers, and messages have numbers. -/
def OfContractor (me : Int) (h : Handled) : Prop :=
  match h.x with
  | .callback q => h.env.callback.Delivers ∧ q.messageId ≠ 0 ∧
      ((buttonOf q.data).bind (moveOfButton q.messageId (h.list me))).isSome
  | .command .start _ => h.env.command.Delivers
  | _ => False

end Handled

/-- The desk in a session; without one it is empty. -/
def World.desk (w : World) (me : Int) : Desk :=
  (w.session me).elim {} fun u => ⟨u.clickedMsgId, u.recentMsgIds⟩

/-- What the contractor knows after an update. Starts and ends are accepted where the keyboard is
edited, a list is shown on a click in the last menu. -/
def Known.next (cfg : Config) (me : Int) (k : Known) (h : Handled) : Known :=
  match h.x with
  | .callback q =>
    if q.from_.id = me then
      match buttonOf q.data with
      | some .myTasks =>
        if (h.before.desk me).clicked = q.messageId then ⟨h.list me, []⟩ else k
      | some .startSolving =>
        if h.edits cfg = [editOf q .taskClosing] then {k with started := q.messageId :: k.started} else k
      | some .taskClosing =>
        if h.edits cfg = [editOf q .taskDone] then
          {k with started := k.started.filter fun m => m ≠ q.messageId}
        else k
      | _ => k
    else k
  | _ => k

/-- What the contractor knows after these updates. -/
def known (cfg : Config) (me : Int) (hist : List Handled) : Known := hist.foldl (Known.next cfg me) {}

/-- The desk, with what the contractor knows. -/
def World.shift (w : World) (me : Int) (k : Known) : Shift := ⟨w.desk me, k.listed, k.started⟩

/-- Ends on messages of the last list are accepted where a start was, and no end since. -/
def AnswersEnds (cfg : Config) (me : Int) (k : Known) (w : World) : Prop :=
  ∀ env q, q.from_.id = me → buttonOf q.data = some .taskClosing → q.messageId ≠ 0 → env.callback.Delivers →
    q.messageId ∈ k.listed →
      ((⟨env, .callback q, w⟩ : Handled).edits cfg = [editOf q .taskDone] ↔ q.messageId ∈ k.started)

section
variable {cfg : Config} {me : Int} {hist : List Handled} {h : Handled} {k : Known} {w w' : World} {d : Desk}
  {q : CallbackQuery}

theorem World.Seated.desk (hw : w.Seated me d) : w.desk me = d := by
  rw [World.Seated] at hw
  unfold World.desk
  cases hs : w.session me with
  | none =>
    rw [hs] at hw
    exact Eq.symm hw
  | some u =>
    rw [hs] at hw
    cases d
    exact Desk.mk.injEq .. ▸ ⟨hw.clicked, hw.shown⟩

/-- What a run keeps: the lists of the session are those of a desk, and messages have numbers. -/
structure Seats (me : Int) (k : Known) (w : World) : Prop where
  seated : w.Seated me (w.desk me)
  consistent : (w.shift me k).Consistent

theorem Shift.next_desk (s : Shift) (mv : Move) : (s.next mv).desk = s.desk.next mv := by
  cases mv with
  | menu | restart | evicted | dialog => rfl
  | list | solve | close =>
    unfold Shift.next
    dsimp only
    split <;> rfl

/-- The state after an update is the shift after its move. -/
theorem shift_of_next {mv : Move} {k' : Known} (hdesk : w'.Seated me ((w.desk me).next mv))
    (hk : k' = ⟨((w.shift me k).next mv).listed, ((w.shift me k).next mv).started⟩) :
    w'.shift me k' = (w.shift me k).next mv := by
  rw [World.shift, hdesk.desk, hk]
  exact congrArg (Shift.mk · _ _) ((w.shift me k).next_desk mv).symm

theorem edits_of_seatedAt {es : List Effect}
    (hw : h.before.SeatedAt me d es (final (handleUpdate cfg h.env h.x) h.before)) : h.edits cfg = es := by
  rw [Handled.edits, hw.edits, List.drop_left]

/-- A click adds to what is known as its move does. -/
theorem known_click {mv : Move} (hx : h.x = .callback q) (hme : q.from_.id = me)
    (hmv : (buttonOf q.data).bind (moveOfButton q.messageId (h.list me)) = some mv)
    (hedits : h.edits cfg = editsOf (h.before.desk me) q mv) :
    k.next cfg me h = ⟨((h.before.shift me k).next mv).listed, ((h.before.shift me k).next mv).started⟩ := by
  rw [Known.next, hx]
  dsimp only
  rw [if_pos hme]
  obtain ⟨b, hb, hmv⟩ := Option.bind_eq_some_iff.mp hmv
  rw [hb]
  cases b with
  | myTasks =>
    obtain rfl := Option.some.inj hmv
    dsimp only
    rw [Shift.next]
    by_cases hc : (h.before.desk me).clicked = q.messageId
    · rw [if_pos hc, if_pos (show (h.before.shift me k).desk.clicked = q.messageId from hc)]
    · rw [if_neg hc, if_neg (show ¬(h.before.shift me k).desk.clicked = q.messageId from hc)]
      rfl
  | newTask =>
    obtain rfl := Option.some.inj hmv
    rfl
  | newFamily =>
    obtain rfl := Option.some.inj hmv
    rfl
  | startSolving =>
    obtain rfl := Option.some.inj hmv
    dsimp only
    rw [hedits, editsOf, Shift.next]
    by_cases hs : (h.before.desk me).Solves q.messageId
    · rw [if_pos hs, if_pos rfl, if_pos (show (h.before.shift me k).desk.Solves q.messageId from hs)]
      rfl
    · rw [if_neg hs, if_neg (List.cons_ne_nil _ _).symm,
        if_neg (show ¬(h.before.shift me k).desk.Solves q.messageId from hs)]
      rfl
  | taskClosing =>
    obtain rfl := Option.some.inj hmv
    dsimp only
    rw [hedits, editsOf, Shift.next]
    by_cases hs : (h.before.desk me).Closes q.messageId
    · rw [if_pos hs, if_pos rfl, if_pos (show (h.before.shift me k).desk.Closes q.messageId from hs)]
      rfl
    · rw [if_neg hs, if_neg (List.cons_ne_nil _ _).symm,
        if_neg (show ¬(h.before.shift me k).desk.Closes q.messageId from hs)]
      rfl
  | _ => cases hmv

theorem sentIds_numbered {env : CallbackEnv} (henv : env.Delivers) (n : Nat) : 0 ∉ env.myIssues.sentIds n := by
  intro hzero
  obtain ⟨i, -, hi⟩ := List.mem_map.mp hzero
  obtain ⟨sent, hsent, hne⟩ := henv.shown i
  rw [MyIssuesEnv.sentId, hsent] at hi
  exact hne hi

theorem move_numbered {b : Button} {mv : Move} {env : CallbackEnv} (henv : env.Delivers) (hq : q.messageId ≠ 0)
    {n : Nat} (hmv : moveOfButton q.messageId (env.myIssues.sentIds n) b = some mv) : Shift.Numbered mv := by
  cases b with
  | myTasks =>
    obtain rfl := Option.some.inj hmv
    exact ⟨hq, sentIds_numbered henv n⟩
  | newTask | newFamily | startSolving | taskClosing =>
    obtain rfl := Option.some.inj hmv
    exact hq
  | _ => cases hmv

/-- After an update the session is seated, and what is known and remembered is the shift after its move. -/
structure Handled.Shifts (cfg : Config) (me : Int) (k : Known) (h : Handled) (w' : World) : Prop where
  seated : w'.Seated me (w'.desk me)
  shift : w'.shift me (k.next cfg me h) = (h.move cfg me).elim (h.before.shift me k) (h.before.shift me k).next
  numbered : ∀ mv ∈ h.move cfg me, Shift.Numbered mv

theorem World.Seated.self (hw : w.Seated me d) : w.Seated me (w.desk me) := hw.desk.symm ▸ hw

/-- Clicks of the contractor. -/
theorem callback_shifts {env : UpdateEnv} (hw : w.Seated me (w.desk me)) (hme : q.from_.id = me)
    (hown : (⟨env, .callback q, w⟩ : Handled).OfContractor me)
    (halive : Alive (failure (handleUpdate cfg env (.callback q)) w)) :
    (⟨env, .callback q, w⟩ : Handled).Shifts cfg me k (final (handleUpdate cfg env (.callback q)) w) := by
  obtain ⟨henv, hq, hsome⟩ := hown
  obtain ⟨mv, hmv⟩ := Option.isSome_iff_exists.mp hsome
  have hmove : (⟨env, .callback q, w⟩ : Handled).move cfg me = some mv := (if_pos hme).trans hmv
  obtain ⟨b, hb, hbutton⟩ := Option.bind_eq_some_iff.mp hmv
  subst hme
  have hpress : Presses w q.from_.id ((w.desk q.from_.id).next mv) (editsOf (w.desk q.from_.id) q mv) b
      (handleUpdate cfg env (.callback q)) w := callback_seated henv hq hb hbutton hw
  have hdone := of_wp (P := fun r w' => Alive r → w.SeatedAt q.from_.id ((w.desk q.from_.id).next mv)
    (editsOf (w.desk q.from_.id) q mv) w')
    (wp_mono hpress (fun _ _ hs _ => hs) fun stop _ hs hr => hs (.inl (hr stop rfl))) halive
  refine ⟨hdone.seated.self, ?_, ?_⟩
  · rw [hmove]
    exact shift_of_next hdone.seated (known_click rfl rfl hmv (edits_of_seatedAt hdone))
  · rw [hmove]
    intro mv' hmv'
    obtain rfl := Option.some.inj hmv'
    exact move_numbered henv hq hbutton

/-- /start of the contractor. -/
theorem start_shifts {env : UpdateEnv} {m : Message} (hw : w.Seated me (w.desk me)) (hme : m.from_.id = me)
    (hown : (⟨env, .command .start m, w⟩ : Handled).OfContractor me) :
    (⟨env, .command .start m, w⟩ : Handled).Shifts cfg me k (final (handleUpdate cfg env (.command .start m)) w) := by
  have hmove : (⟨env, .command .start m, w⟩ : Handled).move cfg me = startMove cfg env w m := if_pos hme
  subst hme
  have hdone := of_wp (P := fun _ => w.SeatedAt m.from_.id
    ((startMove cfg env w m).elim (w.desk m.from_.id) (w.desk m.from_.id).next) [])
    (@start_seated cfg _ _ _ _ hown hw)
  obtain ⟨sent, hsent, hne⟩ := hown.menu
  refine ⟨hdone.seated.self, ?_, ?_⟩
  · rw [hmove]
    have hseated := hdone.seated
    by_cases hok : Program.failure (sessionDispatcher cfg env.dispatcher env.now m) w = none
    · rw [startMove, if_pos hok] at hseated ⊢
      refine shift_of_next hseated ?_
      split <;> rfl
    · rw [startMove, if_neg hok] at hseated ⊢
      rw [Option.elim_none, World.shift, hseated.desk]
      rfl
  · rw [hmove]
    intro mv hmv
    unfold startMove at hmv
    split at hmv
    · obtain rfl := Option.some.inj hmv
      split
      all_goals
        show CommandEnv.menuId _ ≠ 0
        rw [CommandEnv.menuId, hsent]
        exact hne
    · cases hmv

/-- Updates of others leave the desk as it is, or clear it. -/
theorem other_shifts (hw : h.before.Seated me (h.before.desk me)) (hme : me ≠ h.x.fromId)
    (hother : Other cfg h.env h.x h.before w' me) (hw' : w' = final (handleUpdate cfg h.env h.x) h.before) :
    h.Shifts cfg me k w' := by
  have hknown : k.next cfg me h = k := by
    unfold Known.next
    split
    · next q hx =>
      rw [hx] at hme
      exact if_neg (Ne.symm hme)
    · rfl
  have hmove : h.move cfg me = if h.Evicts cfg me then some .evicted else none := if_neg (Ne.symm hme)
  have hstays (hs : w'.Seated me (h.before.desk me)) (hno : ¬h.Evicts cfg me) : h.Shifts cfg me k w' := by
    refine ⟨hs.self, ?_, ?_⟩
    · rw [hmove, if_neg hno, hknown, Option.elim_none, World.shift, hs.desk]
      rfl
    · rw [hmove, if_neg hno]
      rintro mv ⟨⟩
  cases hother with
  | kept hs =>
    refine hstays ?_ ?_
    · rw [World.Seated, hs]
      exact hw
    · rintro ⟨hsome, hnone⟩
      rw [← hw', hs] at hnone
      rw [hnone] at hsome
      cases hsome
  | decided hx hkey hmay hb hs hs' hu =>
    refine hstays ?_ ?_
    · rw [World.Seated, hs] at hw
      rw [World.Seated, hs']
      rw [hu.rest]
      exact ⟨hw.clicked, hw.shown, hw.msgs, hw.issues⟩
    · rintro ⟨-, hnone⟩
      rw [← hw', hs'] at hnone
      cases hnone
  | evicted hx hgone =>
    obtain ⟨u, hu, -, hnone⟩ := hgone
    have hevicts : h.Evicts cfg me := ⟨hu ▸ rfl, hw' ▸ hnone⟩
    have hempty : w'.Seated me {} := by
      rw [World.Seated, hnone]
      rfl
    refine ⟨hempty.self, ?_, ?_⟩
    · rw [hmove, if_pos hevicts, hknown]
      show w'.shift me k = (h.before.shift me k).next .evicted
      exact shift_of_next hempty rfl
    · rw [hmove, if_pos hevicts]
      rintro mv ⟨⟩
      trivial

/-! ### Over a run -/

/-- A property of the updates so far and the state holds before each update, and at the end. -/
def Throughout (P : List Handled → World → Prop) (hist : List Handled) (w : World) : Prop :=
  (∀ pre h post, hist = pre ++ h :: post → P pre h.before) ∧ P hist w

theorem calm_delivers (now : Int) : (UpdateEnv.calm now).callback.Delivers :=
  ⟨trivial, trivial, trivial, fun _ => trivial, fun _ => ⟨⟨1, 1⟩, rfl, by decide⟩, trivial, trivial⟩

/-- An end is accepted where the desk says so. -/
theorem ends_iff {env : UpdateEnv} (hw : w.Seated q.from_.id (w.desk q.from_.id))
    (hb : buttonOf q.data = some .taskClosing) (hq : q.messageId ≠ 0) (henv : env.callback.Delivers) :
    (⟨env, .callback q, w⟩ : Handled).edits cfg = [editOf q .taskDone] ↔
      (w.desk q.from_.id).Closes q.messageId := by
  have hpress : Presses w q.from_.id ((w.desk q.from_.id).next (.close q.messageId))
      (editsOf (w.desk q.from_.id) q (.close q.messageId)) .taskClosing (handleUpdate cfg env (.callback q)) w :=
    callback_seated henv hq hb rfl hw
  have hdone := of_wp (P := fun _ => w.SeatedAt q.from_.id ((w.desk q.from_.id).next (.close q.messageId))
    (editsOf (w.desk q.from_.id) q (.close q.messageId)))
    (wp_mono hpress (fun _ _ hs => hs) fun _ _ hs => hs (.inr (by decide)))
  rw [edits_of_seatedAt hdone, editsOf]
  by_cases hcloses : (w.desk q.from_.id).Closes q.messageId
  · rw [if_pos hcloses]
    exact ⟨fun _ => hcloses, fun _ => rfl⟩
  · rw [if_neg hcloses]
    exact ⟨fun hn => absurd hn (List.cons_ne_nil _ _).symm, fun hc => absurd hc hcloses⟩

/-- What the contractor may rely on is what the shift says. -/
theorem answersEnds_iff (hw : w.Seated me (w.desk me)) (hlisted : 0 ∉ k.listed) :
    AnswersEnds cfg me k w ↔ (w.shift me k).Right := by
  constructor
  · intro hends m hm
    have hnumber : m ≠ 0 := fun hz => hlisted (hz ▸ hm)
    have hb : buttonOf Button.taskClosing.data = some .taskClosing := by decide
    have hclick := hends (UpdateEnv.calm 0) ⟨[], ⟨me, [], []⟩, m, ⟨me, []⟩, Button.taskClosing.data⟩ rfl hb hnumber
      (calm_delivers 0) hm
    exact (ends_iff hw hb hnumber (calm_delivers 0)).symm.trans hclick
  · rintro hright env q rfl hb hq henv hm
    exact (ends_iff hw hb hq henv).trans (hright q.messageId hm)

theorem Seats.apart (hs : Seats me k w) (ha : Apart w w') : Seats me k w' ∧ w'.shift me k = w.shift me k := by
  have hdesk : w'.desk me = w.desk me := by rw [World.desk, World.desk, ha.session]
  have hshift : w'.shift me k = w.shift me k := by rw [World.shift, World.shift, hdesk]
  refine ⟨⟨?_, hshift ▸ hs.consistent⟩, hshift⟩
  rw [World.Seated, ha.session, hdesk]
  exact hs.seated

theorem Seats.answers (hs : Seats me k w) : AnswersEnds cfg me k w ↔ (w.shift me k).Right :=
  answersEnds_iff hs.seated hs.consistent.numbered

theorem Handled.Shifts.seats (hs : Seats me k h.before) (hshift : h.Shifts cfg me k w') :
    Seats me (k.next cfg me h) w' := by
  refine ⟨hshift.seated, ?_⟩
  rw [hshift.shift]
  cases hmv : h.move cfg me with
  | none => exact hs.consistent
  | some mv => exact hs.consistent.next (hshift.numbered mv hmv)

/-- One update: the condition on its move decides whether ends are still accepted as they should. -/
theorem Handled.Shifts.answers (hs : Seats me k h.before) (hshift : h.Shifts cfg me k w')
    (hends : AnswersEnds cfg me k h.before) :
    AnswersEnds cfg me (k.next cfg me h) w' ↔ ∀ mv ∈ h.move cfg me, (h.before.shift me k).Meets mv := by
  have hright : (h.before.shift me k).Right := hs.answers.mp hends
  rw [(hshift.seats hs).answers, hshift.shift]
  cases hmv : h.move cfg me with
  | none =>
    constructor
    · rintro - mv ⟨⟩
    · rintro -
      exact hright
  | some mv =>
    have hstep := Shift.right_next_iff hs.consistent hright (hshift.numbered mv hmv)
    constructor
    · rintro hnext mv' ⟨⟩
      exact hstep.mp hnext
    · intro hmeets
      exact hstep.mpr (hmeets mv rfl)

/-- Any update of a contractor's run. -/
theorem Handles.shifts {env : UpdateEnv} {x : Update} {r : Option Stop}
    (hh : Handles cfg env x w r w') (hs : Seats me k w)
    (hown : x.fromId = me → (⟨env, x, w⟩ : Handled).OfContractor me)
    (halive : Alive (failure (handleUpdate cfg env x) w)) (hw' : w' = final (handleUpdate cfg env x) w) :
    (⟨env, x, w⟩ : Handled).Shifts cfg me k w' := by
  by_cases hme : x.fromId = me
  · cases x with
    | callback q => exact hw' ▸ callback_shifts hs.seated hme (hown hme) halive
    | command name m =>
      cases name with
      | start => exact hw' ▸ start_shifts hs.seated hme (hown hme)
      | help => exact (hown hme).elim
    | message m => exact (hown hme).elim
  · exact other_shifts hs.seated (Ne.symm hme) (hh.others me (Ne.symm hme)) hw'

/-- **Starts and ends.** Wherever a contractor's run leads, ends on the messages of his last list are
accepted where a start was and no end since, exactly if his updates meet the condition. -/
theorem closings_iff (hr : Run cfg hist w) (hown : ∀ h ∈ hist, h.x.fromId = me → h.OfContractor me) :
    Throughout (fun pre w => AnswersEnds cfg me (known cfg me pre) w) hist w ↔
      ∀ pre h post, hist = pre ++ h :: post →
        ∀ mv ∈ h.move cfg me, (h.before.shift me (known cfg me pre)).Meets mv := by
  suffices hall : (∀ h ∈ hist, h.x.fromId = me → h.OfContractor me) → Seats me (known cfg me hist) w ∧
      (Throughout (fun pre w => AnswersEnds cfg me (known cfg me pre) w) hist w ↔
        ∀ pre h post, hist = pre ++ h :: post →
          ∀ mv ∈ h.move cfg me, (h.before.shift me (known cfg me pre)).Meets mv) from (hall hown).2
  refine hr.induct (P := fun hist w => (∀ h ∈ hist, h.x.fromId = me → h.OfContractor me) →
    Seats me (known cfg me hist) w ∧
      (Throughout (fun pre w => AnswersEnds cfg me (known cfg me pre) w) hist w ↔
        ∀ pre h post, hist = pre ++ h :: post →
          ∀ mv ∈ h.move cfg me, (h.before.shift me (known cfg me pre)).Meets mv)) ?_ ?_ ?_
  · rintro sh - -
    have hseats : Seats me {} ({sh} : World) := ⟨rfl, ⟨.inl rfl, List.not_mem_nil⟩⟩
    refine ⟨hseats, ?_⟩
    constructor
    · rintro - pre h post hsplit
      exact absurd hsplit.symm (List.append_ne_nil_of_right_ne_nil _ (List.cons_ne_nil _ _))
    · rintro -
      refine ⟨fun pre h post hsplit => ?_, hseats.answers.mpr fun m hm => by cases hm⟩
      exact absurd hsplit.symm (List.append_ne_nil_of_right_ne_nil _ (List.cons_ne_nil _ _))
  · intro hist w _ ih env x w' halive hw' hh hown
    obtain ⟨hseats, hiff⟩ := ih fun h hh => hown h (List.mem_append_left _ hh)
    have hshifts := hh.shifts hseats (hown ⟨env, x, w⟩ (List.mem_append_right _ List.mem_cons_self)) halive hw'
    have hknown : known cfg me (hist ++ [⟨env, x, w⟩]) = (known cfg me hist).next cfg me ⟨env, x, w⟩ :=
      List.foldl_concat ..
    rw [Throughout, forall_split_concat, forall_split_concat, ← hiff, hknown]
    refine ⟨hshifts.seats hseats, ?_⟩
    constructor
    · rintro ⟨hbefore, hends⟩
      exact ⟨hbefore, (hshifts.answers hseats hbefore.2).mp hends⟩
    · rintro ⟨hbefore, hmeets⟩
      exact ⟨hbefore, (hshifts.answers hseats hbefore.2).mpr hmeets⟩
  · intro hist w w' _ ih ha hown
    obtain ⟨hseats, hiff⟩ := ih hown
    obtain ⟨hseats', hshift⟩ := hseats.apart ha
    refine ⟨hseats', ?_⟩
    rw [← hiff, Throughout, Throughout, hseats.answers, hseats'.answers, hshift]

end

/-! ### A contractor with two issues -/

/-- Two rows of contractor 3, and a world in which the messages of his list are 10 and 11. -/
def twoIssues : Shared where
  db := {issues := [{id := 1, contractorId := of "3"}, {id := 2, contractorId := of "3"}]}

def listing : UpdateEnv :=
  let env := UpdateEnv.calm 0
  { env with callback := { env.callback with
      myIssues := {env.callback.myIssues with show_ := fun i => .returns ⟨10 + i, 1⟩} } }

/-- A click under the message of this number. -/
def clickUnder (id m : Int) (b : Button) : Update := .callback ⟨[], ⟨id, [], []⟩, m, ⟨id, []⟩, b.data⟩

/-- /start, the list, and a start on its first message. -/
def startOnFirst : List (UpdateEnv × Update) :=
  [startFrom 3, clickUnder 3 1 .myTasks, clickUnder 3 10 .startSolving].map fun x => (listing, x)

theorem listing_delivers : listing.callback.Delivers := by
  refine ⟨trivial, trivial, trivial, fun _ => trivial, fun i => ⟨⟨10 + i, 1⟩, rfl, ?_⟩, trivial, trivial⟩
  show (10 + (i : Int)) ≠ 0
  omega

/-- The updates played are those of the list. -/
theorem played_mem {cfg : Config} {updates : List (UpdateEnv × Update)} {w : World} {h : Handled}
    (hh : h ∈ (played cfg updates w).1) : (h.env, h.x) ∈ updates := by
  induction updates generalizing w with
  | nil => cases hh
  | cons i rest ih =>
    obtain ⟨env, x⟩ := i
    rcases List.mem_cons.mp hh with rfl | hh
    · exact List.mem_cons_self
    · exact List.mem_cons_of_mem _ (ih hh)

theorem startOnFirst_ofContractor : ∀ h ∈ (played {} startOnFirst {sh := twoIssues}).1, h.x.fromId = 3 →
    h.OfContractor 3 := by
  rintro ⟨env, x, before⟩ hh -
  have hmem : (env, x) ∈ startOnFirst := played_mem hh
  simp only [startOnFirst, List.map_cons, List.map_nil, List.mem_cons, Prod.mk.injEq, List.not_mem_nil,
    or_false] at hmem
  rcases hmem with ⟨rfl, rfl⟩ | ⟨rfl, rfl⟩ | ⟨rfl, rfl⟩
  · exact ⟨trivial, ⟨1, 1⟩, rfl, by decide⟩
  · exact ⟨listing_delivers, by decide, rfl⟩
  · exact ⟨listing_delivers, by decide, rfl⟩

theorem startOnFirst_run : Run {} (played {} startOnFirst {sh := twoIssues}).1
    (played {} startOnFirst {sh := twoIssues}).2 := by
  have hstart : Run {} [] {sh := twoIssues} := .start rfl
  have halive : survives {} startOnFirst {sh := twoIssues} = true := by decide +kernel
  exact hstart.played halive

theorem closings_iff_start :
    let hist := (played {} startOnFirst {sh := twoIssues}).1
    let w := (played {} startOnFirst {sh := twoIssues}).2
    known {} 3 hist = ⟨[10, 11], [10]⟩ ∧
      (Throughout (fun pre w => AnswersEnds {} 3 (known {} 3 pre) w) hist w ↔
        ∀ pre h post, hist = pre ++ h :: post →
          ∀ mv ∈ h.move {} 3, (h.before.shift 3 (known {} 3 pre)).Meets mv) :=
  ⟨by decide +kernel, closings_iff startOnFirst_run startOnFirst_ofContractor⟩

/-- After it, an end is accepted on the second message too. -/
theorem end_unstarted : ¬∀ (cfg : Config) (me : Int) (hist : List Handled) (w : World), Run cfg hist w →
    (∀ h ∈ hist, h.x.fromId = me → h.OfContractor me) → AnswersEnds cfg me (known cfg me hist) w := by
  intro hall
  have hends := hall {} 3 _ _ startOnFirst_run startOnFirst_ofContractor
  have hknown : known {} 3 (played {} startOnFirst {sh := twoIssues}).1 = ⟨[10, 11], [10]⟩ := by decide +kernel
  have haccepted := (hends listing ⟨[], ⟨3, [], []⟩, 11, ⟨3, []⟩, Button.taskClosing.data⟩ rfl (by decide)
    (by decide) listing_delivers (by rw [hknown]; decide)).mp (by decide +kernel)
  rw [hknown] at haccepted
  revert haccepted
  decide

end Chanserv
