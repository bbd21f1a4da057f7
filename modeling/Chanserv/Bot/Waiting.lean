import Chanserv.Bot.Deliveries

/-! Key requests that wait for a decision.

The request is nothing but the reason in the task of the session. It waits as long
as the reason is there, and then either decision reaches the user; an update of the
user that empties the task takes it away, and an empty reason was no request. -/
namespace Chanserv
open Text Program

/-! ### The wait -/

namespace Handled

/-- Some of the staff is told of the request, and the user to wait for the answer. -/
def Requests (cfg : Config) (id : Int) (h : Handled) : Prop :=
  (∃ chat messageId, h.Announces cfg id chat messageId) ∧ h.env.smallTalk.prompt.Normal

/-- The update of the user leaves no request: the task is emptied, or an empty reason given. -/
def Loses (cfg : Config) (id : Int) (h : Handled) : Prop :=
  h.Clears cfg id ∨ h.GivesReason cfg id ∧ h.reasonGiven cfg = []

instance (cfg : Config) (id : Int) (h : Handled) : Decidable (h.Loses cfg id) :=
  inferInstanceAs (Decidable (_ ∨ _))

end Handled

/-- A step of the wait: nobody decides about the request, and the session is not removed. -/
structure Waits (cfg : Config) (id : Int) (w : World) (es : List Handled) (w' : World) : Prop where
  step : Life.Step cfg w es w'
  session : w'.session id ≠ none
  kept : ∀ h ∈ es, (∀ q, h.x ≠ .callback q) → ¬h.before.Expires cfg h.env.now id
  /-- An approval counts that fails for want of a key: it loses the request as well. -/
  undecided : ∀ h ∈ es, ∀ approved, .decideKey approved id ∉ h.effects cfg

section
variable {cfg : Config} {id : Int} {h : Handled} {w w' s₀ : World} {es : List Handled} {sh : Shared}

theorem Handled.reasonLeft_eq_nil (hreason : h.before.reason id ≠ []) :
    h.reasonLeft cfg id = [] ↔ h.Loses cfg id := by
  unfold Handled.reasonLeft Handled.Loses
  split
  case isTrue hclears => exact ⟨fun _ => .inl hclears, fun _ => rfl⟩
  case isFalse hkeeps =>
    split
    case isTrue hgives => exact ⟨fun hnone => .inr ⟨hgives, hnone⟩, fun h => (h.resolve_left hkeeps).2⟩
    case isFalse hno => exact ⟨fun hnone => absurd hnone hreason, fun h => absurd (h.resolve_left hkeeps).1 hno⟩

/-- A step of the wait is an update, or leaves the request. -/
theorem Waits.cases (hs : Waits cfg id w es w') :
    (∃ h, es = [h] ∧ h.before = w ∧ w'.reason id = h.reasonLeft cfg id) ∨ es = [] ∧ w'.reason id = w.reason id := by
  obtain ⟨hstep, hsession, hkept, hno⟩ := hs
  cases hstep with
  | update env x halive =>
    have hmem := List.mem_singleton_self (⟨env, x, w⟩ : Handled)
    exact .inl ⟨_, rfl, rfl, Handled.reason_after (h := ⟨env, x, w⟩) halive (hkept _ hmem) hsession (hno _ hmem)⟩
  | ended => exact absurd rfl hsession
  | restarted => exact absurd rfl hsession
  | task env task h =>
    have hapart : Apart w (final (serviceBot (runTask cfg env task)) w) := .of_silent .runTask w
    refine .inr ⟨rfl, ?_⟩
    rw [World.reason, World.reason, hapart.session]
  | queued tasks => exact .inr ⟨rfl, rfl⟩
  | tables db used h => exact .inr ⟨rfl, rfl⟩

theorem Waits.one (hs : Waits cfg id w es w') : es.length ≤ 1 := hs.step.one

theorem Waits.life (hrun : Runs (Waits cfg id) s₀ es w) : Runs (Life.Step cfg) s₀ es w :=
  hrun.mono fun _ _ _ hs => hs.step

/-- A request waits as long as no update of the user loses it. -/
theorem Waits.reason (hrun : Runs (Waits cfg id) s₀ es w) (hstart : s₀.reason id ≠ [])
    (hkeeps : ∀ h ∈ es, ¬h.Loses cfg id) : w.reason id ≠ [] := by
  refine hrun.invariant (I := fun es w => (∀ h ∈ es, ¬h.Loses cfg id) → w.reason id ≠ []) (fun _ => hstart) ?_ hkeeps
  intro es w es' w' hw hs hkeeps
  have hopen := hw fun h hh => hkeeps h (List.mem_append_left _ hh)
  rcases hs.cases with ⟨h, rfl, rfl, hleft⟩ | ⟨-, hsame⟩
  · rw [hleft, ne_eq, Handled.reasonLeft_eq_nil hopen]
    exact hkeeps h (List.mem_append_right _ (List.mem_singleton_self h))
  · rw [hsame]
    exact hopen

/-- No key in the table is empty, over all lives. -/
theorem Life.filled (hrun : Runs (Life.Step cfg) s₀ es w) (hkeys : Filled s₀.sh.keys)
    (hgen : ∀ h ∈ es, h.env.callback.key.generatedKey ≠ []) : Filled w.sh.keys := by
  refine hrun.invariant (I := fun es w => (∀ h ∈ es, h.env.callback.key.generatedKey ≠ []) → Filled w.sh.keys)
    (fun _ => hkeys) ?_ hgen
  intro es w es' w' hw hs hgen
  have hfilled := hw fun h hh => hgen h (List.mem_append_left _ hh)
  have hnew (env : UpdateEnv) (x : Update) (hes : es' = [⟨env, x, w⟩]) :
      Filled (final (handleUpdate cfg env x) w).sh.keys := by
    refine handleUpdate_filled (hgen ⟨env, x, w⟩ (List.mem_append_right _ ?_)) hfilled
    rw [hes]
    exact List.mem_singleton_self _
  cases hs with
  | update env x => exact hnew env x rfl
  | ended env x _ hsame =>
    have hfinal := hnew env x rfl
    rw [← hsame] at hfinal
    exact hfinal
  | restarted hsame =>
    rw [← hsame] at hfilled
    exact hfilled
  | task env task =>
    have hstays : Stays SameKeys (serviceBot (runTask cfg env task)) := inferInstance
    have hsame : SameKeys w (final (serviceBot (runTask cfg env task)) w) :=
      of_wp (P := fun _ => SameKeys w) (hstays.within w)
    rw [hsame.2]
    exact hfilled
  | queued tasks => exact hfilled
  | tables db used h =>
    have hused := hfilled.activated used
    rw [← h] at hused
    exact hused

/-- The request that is announced is the one the session holds then. -/
theorem Handled.Requests.reason (ha : h.Requests cfg id)
    (halive : Alive (failure (handleUpdate cfg h.env h.x) h.before)) :
    (h.after cfg).reason id = h.before.reason id := by
  obtain ⟨⟨chat, messageId, hannounces⟩, -⟩ := ha
  have hgives := hannounces.gives_none
  obtain ⟨env, x, w⟩ := h
  obtain ⟨hid, hheard, -⟩ := hannounces
  cases x with
  | command | callback => cases hheard
  | message m =>
    subst hid
    obtain ⟨hok, hkept, hstat⟩ := heard_stat hheard (by decide)
    have hplace : ¬w.Expires cfg env.now m.from_.id := by
      intro hx
      rw [World.arriving, if_pos hx] at hkept
      rw [← hkept] at hstat
      cases hstat
    have hkeeps : ¬Handled.Clears cfg m.from_.id ⟨env, .message m, w⟩ := by
      rintro ⟨-, t, ht, hclears⟩
      rw [facing_eq, if_pos hok, hkept] at ht
      rw [← Option.some.inj ht, hstat] at hclears
      exact hclears.elim (fun hrole => hrole (isAllowed_anyone _ _)) id
    refine (Handled.message_reason halive hplace).trans ?_
    rw [Handled.reasonLeft]
    exact (if_neg hkeeps).trans (if_neg hgives)

/-- In every run, a request that is announced can be decided all the time it waits exactly when its
reason is no empty text and no update of the user in between loses it. -/
theorem request_waits_iff {old since : List Handled} {a : Handled} {env : UpdateEnv} {q : CallbackQuery}
    (hold : Runs (Life.Step cfg) {sh} old a.before) (ha : a.Requests cfg id)
    (halive : Alive (failure (handleUpdate cfg a.env a.x) a.before))
    (hsince : Runs (Waits cfg id) (a.after cfg) since w) (hkeys : Filled sh.keys)
    (hgen : ∀ h ∈ old ++ a :: since, h.env.callback.key.generatedKey ≠ [])
    (hq : q.Decides cfg id) (henv : env.callback.key.Succeeds) :
    (∀ pre post s, since = pre ++ post → Runs (Waits cfg id) (a.after cfg) pre s → Delivers cfg id env q s) ↔
      id ≠ 0 ∧ a.before.reason id ≠ [] ∧ ∀ h ∈ since, ¬h.Loses cfg id := by
  have hannounced : Runs (Life.Step cfg) {sh} (old ++ [a]) (a.after cfg) := hold.step (.update a.env a.x halive)
  have hfilled {pre post : List Handled} {s : World} (hsplit : since = pre ++ post)
      (hrun : Runs (Waits cfg id) (a.after cfg) pre s) : Filled s.sh.keys := by
    have hmore : old ++ a :: since = old ++ [a] ++ pre ++ post := by simp [hsplit]
    refine Life.filled (hannounced.append (Waits.life hrun)) hkeys fun h hh => hgen h ?_
    rw [hmore]
    exact List.mem_append_left _ hh
  have hstart := ha.reason halive
  constructor
  · intro hall
    have hfirst := (delivers_iff hq henv (hfilled rfl .start)).mp (hall [] since _ rfl .start)
    rw [hstart] at hfirst
    refine ⟨hfirst.1, hfirst.2, fun h hh hloses => ?_⟩
    have hopen {pre post : List Handled} {s : World} (hsplit : since = pre ++ post)
        (hrun : Runs (Waits cfg id) (a.after cfg) pre s) : s.reason id ≠ [] :=
      ((delivers_iff hq henv (hfilled hsplit hrun)).mp (hall pre post s hsplit hrun)).2
    obtain ⟨pre, post, hsplit⟩ := List.append_of_mem hh
    have hrun := hsince
    rw [hsplit] at hrun
    obtain ⟨s, s', hbefore, hstep, -⟩ := hrun.at_event fun _ _ _ => Waits.one
    rcases hstep.cases with ⟨h', hone, hb, hleft⟩ | ⟨hnone, -⟩
    · obtain rfl := List.singleton_inj.mp hone
      have hthere : h.before.reason id ≠ [] := by
        rw [hb]
        exact hopen hsplit hbefore
      have hafter : s'.reason id ≠ [] := by
        rw [List.append_cons] at hsplit
        exact hopen hsplit (hbefore.step hstep)
      rw [hleft, ne_eq, Handled.reasonLeft_eq_nil hthere] at hafter
      exact hafter hloses
    · cases hnone
  · rintro ⟨h0, hreason, hkeeps⟩ pre post s rfl hrun
    refine (delivers_iff hq henv (hfilled rfl hrun)).mpr ⟨h0, ?_⟩
    exact Waits.reason hrun (hstart ▸ hreason) fun h hh => hkeeps h (List.mem_append_left _ hh)

end

/-! ### A request that is kept, and one that is lost -/

/-- User 6 asks for a key and gives a reason. -/
def reasonGiven6 : List (UpdateEnv × Update) := keyUpdates.take 3

/-- He gives his name: 7 is told of the request, and he to wait. -/
def announced : Handled := ⟨.calm 0, textFrom 6 "Ivan", (played staff7 reasonGiven6 {}).2⟩

/-- He asks how long it takes. -/
def asksOn : Handled := ⟨.calm 0, textFrom 6 "soon?", announced.after staff7⟩

/-- He presses /start. -/
def startsAnew : Handled := ⟨.calm 0, startFrom 6, announced.after staff7⟩

/-- The click of 7 on the button to approve. -/
def approveClick : CallbackQuery := ⟨[], ⟨7, [], []⟩, 1, ⟨7, []⟩, of "approve_key_request_6"⟩

theorem announced_run :
    Runs (Life.Step staff7) {} (played staff7 reasonGiven6 {}).1 announced.before := by
  have halive : survives staff7 reasonGiven6 {} = true := by decide +kernel
  have hrun : Runs (Life.Step staff7) {} ([] ++ (played staff7 reasonGiven6 {}).1) _ := Life.played .start halive
  exact hrun

theorem announced_requests : announced.Requests staff7 6 := by
  refine ⟨⟨7, 1, by decide +kernel, by decide +kernel, 0, ⟨1, 1⟩, ?_, rfl, rfl⟩, trivial⟩
  decide

/-- One update is a wait. -/
theorem one_waits {h : Handled} (hb : h.before = announced.after staff7)
    (hok : failure (handleUpdate staff7 h.env h.x) h.before = none) (hsession : (h.after staff7).session 6 ≠ none)
    (hkept : ¬h.before.Expires staff7 h.env.now 6) (hno : ∀ approved, .decideKey approved 6 ∉ h.effects staff7) :
    Runs (Waits staff7 6) (announced.after staff7) [h] (h.after staff7) := by
  rw [← hb]
  have hstep : Life.Step staff7 h.before [h] (h.after staff7) := by
    refine .update h.env h.x fun stop hstop => ?_
    rw [hok] at hstop
    cases hstop
  refine Runs.start.step ⟨hstep, hsession, fun g hg _ => ?_, fun g hg => ?_⟩
  · rw [List.mem_singleton.mp hg]
    exact hkept
  · rw [List.mem_singleton.mp hg]
    exact hno

theorem approveClick_decides : approveClick.Decides staff7 6 := ⟨by decide, by decide, by decide⟩

theorem approval_succeeds : approval.1.callback.key.Succeeds := ⟨rfl, rfl, trivial, by decide, trivial⟩

theorem request_waits_iff_asked :
    Delivers staff7 6 approval.1 approveClick (asksOn.after staff7) ∧
    ((∀ pre post s, [asksOn] = pre ++ post → Runs (Waits staff7 6) (announced.after staff7) pre s →
      Delivers staff7 6 approval.1 approveClick s) ↔
        (6 : Int) ≠ 0 ∧ announced.before.reason 6 ≠ [] ∧ ∀ h ∈ [asksOn], ¬h.Loses staff7 6) := by
  have hsince : Runs (Waits staff7 6) (announced.after staff7) [asksOn] (asksOn.after staff7) :=
    one_waits (by simp only [asksOn]) (by decide +kernel) (by decide +kernel) (by decide +kernel) (by decide +kernel)
  have halive : Alive (failure (handleUpdate staff7 announced.env announced.x) announced.before) := by
    have hok : failure (handleUpdate staff7 announced.env announced.x) announced.before = none := by decide +kernel
    intro stop hstop
    rw [hok] at hstop
    cases hstop
  have hiff := request_waits_iff announced_run announced_requests halive hsince
    (fun row hrow => by cases hrow) (by decide +kernel) approveClick_decides approval_succeeds
  have hholds : (6 : Int) ≠ 0 ∧ announced.before.reason 6 ≠ [] ∧ ∀ h ∈ [asksOn], ¬h.Loses staff7 6 := by
    decide +kernel
  exact ⟨hiff.mpr hholds [asksOn] [] _ rfl hsince, hiff⟩

/-- After /start the click of 7 comes to nothing: 6 waits for an answer that never comes. -/
theorem waiting_request_lost :
    Runs (Life.Step staff7) {} (played staff7 reasonGiven6 {}).1 announced.before ∧ announced.Requests staff7 6 ∧
    Runs (Waits staff7 6) (announced.after staff7) [startsAnew] (startsAnew.after staff7) ∧
    approveClick.Decides staff7 6 ∧ approval.1.callback.key.Succeeds ∧
    ¬Delivers staff7 6 approval.1 approveClick (startsAnew.after staff7) := by
  have hsince : Runs (Waits staff7 6) (announced.after staff7) [startsAnew] (startsAnew.after staff7) :=
    one_waits (by simp only [startsAnew]) (by decide +kernel) (by decide +kernel) (by decide +kernel) (by decide +kernel)
  refine ⟨announced_run, announced_requests, hsince, approveClick_decides, approval_succeeds, ?_⟩
  rintro ⟨text, -, htold⟩
  have hnone : (⟨approval.1, .callback approveClick, startsAnew.after staff7⟩ : Handled).told staff7 6 = [] := by
    decide +kernel
  rw [hnone] at htold
  cases htold

end Chanserv
