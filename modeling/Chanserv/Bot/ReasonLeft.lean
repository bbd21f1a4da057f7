import Chanserv.Bot.Reasons

/-! What an update leaves of a key request.

Besides the user's own updates only a decision touches his request. So the request
after any update is the one before, or what `reasonLeft` says is put in its place. -/
namespace Chanserv
open Text Program

/-! ### Clicks that decide nothing -/

section
variable {cfg : Config} {q : CallbackQuery} {id : Int} {w : World}


/-- Nobody is told anything, and no request is touched. -/
def Undecided (w w' : World) : Prop := w'.sh.verdicts = w.sh.verdicts ∧ ∀ b, w'.reason b = w.reason b

theorem lookUpRequester_undecided {kenv : KeyEnv} {requester now : Int}
    (hnone : requester = 0 ∨ w.reason requester = []) :
    wp (lookUpRequester cfg kenv q requester now) (fun _ => Undecided w) (fun _ => Undecided w) w := by
  have hseen {u : UserDispatcher} (hu : w.session requester = some u) {w' : World}
      (hat' : w'.At requester ((⟨u, w.sh⟩ : Chat).touch now)) (ho' : OthersKept requester w w') : Undecided w w' := by
    obtain ⟨-, -, -, hsh⟩ := id hat'
    exact ⟨congrArg Shared.verdicts hsh, World.reason_of_at hu hat' ho' rfl⟩
  refine wp_lookUpRequester (fun _ _ _ => ⟨Shared.verdicts_other rfl, fun _ => rfl⟩) (fun u hu h0 _ => ?_)
    fun u hu _ w' hat' ho' => hseen hu hat' ho'
  have hreason : u.jiraTask.keyReason = [] := (World.reason_of_session hu).symm.trans (hnone.resolve_left h0)
  rw [approveKey, wp_bind, wp_get]
  exact wp_guarded_of_not (fun hopen => hopen hreason) fun w' hat' ho' => hseen hu hat' ho'

theorem keyDecision_undecided {kenv : KeyEnv} {now : Int}
    (hnone : ∀ requester, requesterId q.data = some requester → requester = 0 ∨ w.reason requester = []) :
    wp (keyDecision cfg kenv q now) (fun _ => Undecided w) (fun _ => Undecided w) w := by
  unfold keyDecision
  cases hreq : requesterId q.data with
  | none => exact ⟨rfl, fun _ => rfl⟩
  | some requester =>
    dsimp only
    rw [wp_bind]
    refine wp_mono (wp_and (lookUpRequester_undecided (hnone requester hreq)) lookUpRequester_decided) ?_ fun _ _ h => h.1
    rintro goesOn w₁ ⟨hund, hdecided⟩
    rw [wp_bind, wp_get, wp_bind, wp_guarded]
    refine ⟨?_, fun _ => hund⟩
    rintro ⟨-, h0, hpointer, -⟩
    cases hu : w.session requester with
    | none =>
      rw [(hdecided.absent hu).2] at hpointer
      cases hpointer
    | some u =>
      obtain ⟨u₁, -, hat⟩ := hdecided.present u hu
      have hreason : u₁.jiraTask.keyReason = [] := by
        rw [← World.reason_of_session hat.session, hund.2]
        exact (hnone requester hreq).resolve_left h0
      refine wp_onSession hat ?_
      rw [rejectKey, wp_bind, wp_get, wp_guarded]
      refine ⟨fun hopen => absurd hreason hopen, fun _ w₂ hat₂ ho₂ => ?_⟩
      obtain ⟨-, -, -, hsh⟩ := id hat₂
      refine ⟨(congrArg Shared.verdicts hsh).trans hund.1, fun b => ?_⟩
      exact (World.reason_of_at hat.session hat₂ ho₂ rfl b).trans (hund.2 b)

/-- A click about a user with no request, or about nobody. -/
theorem keyClick_undecided (env : UpdateEnv) (hkey : isApprove q.data ∨ isReject q.data)
    (hnone : ∀ requester, requesterId q.data = some requester → requester = 0 ∨ w.reason requester = []) :
    Undecided w (final (handleUpdate cfg env (.callback q)) w) := by
  refine keyClick_final hkey (fun _ => ⟨rfl, fun _ => rfl⟩) (fun _ => keyDecision_undecided hnone) ?_
  exact fun _ _ hsh hreason h => ⟨(congrArg Shared.verdicts hsh).trans h.1, fun b => (hreason b).trans (h.2 b)⟩

/-- A click about somebody else. -/
theorem keyClick_other (env : UpdateEnv) (hkey : isApprove q.data ∨ isReject q.data) (hid : requesterId q.data ≠ some id) :
    (final (handleUpdate cfg env (.callback q)) w).reason id = w.reason id := by
  have hothers {w₁ : World} {requester : Int} (hreq : requesterId q.data = some requester)
      (hd : Decided env.now requester w w₁) : w₁.reason id = w.reason id := by
    have hne : id ≠ requester := by
      rintro rfl
      exact hid hreq
    rw [World.reason, World.reason, hd.others.session hne]
  refine keyClick_final (P := fun w' => w'.reason id = w.reason id) hkey (fun _ => rfl) (fun _ => ?_)
    fun _ _ _ hreason h => (hreason id).trans h
  refine wp_mono keyDecision_decided (fun _ w₁ h₁ => ?_) fun _ w₁ h₁ => ?_
  · rcases h₁ with rfl | ⟨requester, hreq, hd⟩
    · rfl
    · exact hothers hreq hd
  · obtain ⟨-, requester, hreq, hd⟩ := h₁
    exact hothers hreq hd

end

/-! ### What is left of a request -/

theorem World.Leaves.final {w : World} {id : Int} {r : Text} {m : BotM Unit} (h : w.Leaves id r m)
    (halive : Alive (failure m w)) : (final m w).reason id = r := by
  have hends : Alive (failure m w) → (Program.final m w).reason id = r := by
    refine of_wp (P := fun stop (w' : World) => Alive stop → w'.reason id = r) ?_
    exact wp_mono h (fun _ _ hr _ => hr) fun stop _ hr halive => hr (halive stop rfl)
  exact hends halive

namespace Handled
variable {cfg : Config} {id : Int} {h : Handled}

/-- The reason the user gives, as it is recorded. -/
def reasonGiven (cfg : Config) (h : Handled) : Text :=
  cleanDescription ((heard cfg h.env h.before h.x).elim [] Prod.snd)

/-- What an update leaves of the reason. -/
def reasonLeft (cfg : Config) (id : Int) (h : Handled) : Text :=
  if h.Clears cfg id then [] else if h.GivesReason cfg id then h.reasonGiven cfg else h.before.reason id

/-- A click that decides nothing about a user leaves his request. -/
theorem keyClick_reason {env : UpdateEnv} {q : CallbackQuery} {w : World} (hkey : isApprove q.data ∨ isReject q.data)
    (hno : ∀ approved, .decideKey approved id ∉ (⟨env, .callback q, w⟩ : Handled).effects cfg) :
    (after cfg ⟨env, .callback q, w⟩).reason id = w.reason id := by
  by_cases hreq : requesterId q.data = some id
  · by_cases hrole : cfg.hasRole q.from_.id .staff
    · refine (keyClick_undecided env hkey fun requester hrequester => ?_).2 id
      obtain rfl := Option.some.inj (hreq.symm.trans hrequester)
      by_contra hopen
      obtain ⟨h0, hreason⟩ := not_or.mp hopen
      exact hno _ ((mem_keyClick_effects env hkey).mpr ⟨hrole, hreq, h0, hreason, rfl⟩)
    · exact keyClick_final (P := fun w' => w'.reason id = w.reason id) hkey (fun _ => rfl) (fun h => absurd h hrole)
        fun _ _ _ hreason h => (hreason id).trans h
  · exact keyClick_other env hkey hreq

/-- What a message of the user leaves, by what it finds. -/
theorem message_left {env : UpdateEnv} {m : Message} {w : World} (hplace : ¬w.Expires cfg env.now m.from_.id) :
    (facing cfg env w m).elim (w.reason m.from_.id) (NewTask.leftAt cfg env.smallTalk m) =
      reasonLeft cfg m.from_.id ⟨env, .message m, w⟩ := by
  unfold reasonLeft
  cases hfacing : facing cfg env w m with
  | none =>
    have hkeeps : ¬Clears cfg m.from_.id ⟨env, .message m, w⟩ := by
      rintro ⟨-, t, ht, -⟩
      rw [hfacing] at ht
      cases ht
    have hgives : ¬GivesReason cfg m.from_.id ⟨env, .message m, w⟩ := by
      rintro ⟨-, hheard⟩
      rw [heard, hfacing] at hheard
      cases hheard
    rw [if_neg hkeeps, if_neg hgives]
    rfl
  | some t =>
    have hheard : heard cfg env w (.message m) = some (t.stat, m.text) := by rw [heard, hfacing, Option.map_some]
    have hgives : GivesReason cfg m.from_.id ⟨env, .message m, w⟩ ↔ t.stat = revitMasterKeyReasonStep1 := by
      rw [GivesReason, hheard, Option.map_some, Option.some.injEq]
      exact and_iff_right rfl
    have hclears : Clears cfg m.from_.id ⟨env, .message m, w⟩ ↔
        ¬cfg.hasRole m.from_.id (roleForStep t.stat) ∨ env.smallTalk.Clears m t.stat := by
      constructor
      · rintro ⟨-, t', ht', h⟩
        obtain rfl := Option.some.inj (hfacing.symm.trans ht')
        exact h
      · exact fun h => ⟨rfl, t, hfacing, h⟩
    have hreason : t.keyReason = w.reason m.from_.id := by
      rw [facing_eq] at hfacing
      split at hfacing
      case isFalse => cases hfacing
      case isTrue =>
        rw [World.arriving, if_neg hplace, Option.some.injEq] at hfacing
        rw [← hfacing, World.reason_eq]
    rw [Option.elim_some, NewTask.leftAt, hreason, reasonGiven, hheard]
    simp only [hclears, hgives]
    rfl

theorem message_reason {env : UpdateEnv} {m : Message} {w : World}
    (halive : Alive (failure (handleUpdate cfg env (.message m)) w)) (hplace : ¬w.Expires cfg env.now m.from_.id) :
    (after cfg ⟨env, .message m, w⟩).reason m.from_.id = reasonLeft cfg m.from_.id ⟨env, .message m, w⟩ :=
  ((handleUpdate_message_leaves rfl).final halive).trans (message_left hplace)

/-- A request is what the last update about it left, unless it is decided or the session removed. -/
theorem reason_after (halive : Alive (failure (handleUpdate cfg h.env h.x) h.before))
    (hplace : (∀ q, h.x ≠ .callback q) → ¬h.before.Expires cfg h.env.now id)
    (hsession : (h.after cfg).session id ≠ none) (hno : ∀ approved, .decideKey approved id ∉ h.effects cfg) :
    (h.after cfg).reason id = h.reasonLeft cfg id := by
  obtain ⟨env, x, w⟩ := h
  dsimp only at halive hplace
  have hgives (hx : ∀ m, x ≠ .message m) : ¬GivesReason cfg id ⟨env, x, w⟩ := by
    rintro ⟨-, hheard⟩
    cases x with
    | message m => exact hx m rfl
    | _ => cases hheard
  by_cases hid : x.fromId = id
  · subst hid
    cases x with
    | command name m =>
      refine ((handleUpdate_command_leaves name rfl).final halive).trans ?_
      unfold reasonLeft
      rw [if_neg (hgives fun _ hn => by cases hn)]
      by_cases hok : failure (sessionDispatcher cfg env.dispatcher env.now m) w = none
      · have hclears : Clears cfg m.from_.id ⟨env, .command name m, w⟩ := ⟨rfl, hok⟩
        exact (if_pos hok).trans (if_pos hclears).symm
      · have hkeeps : ¬Clears cfg m.from_.id ⟨env, .command name m, w⟩ := fun hclears => hok hclears.2
        exact (if_neg hok).trans (if_neg hkeeps).symm
    | message m => exact message_reason halive (hplace fun _ hn => by cases hn)
    | callback q =>
      have hnone := hgives fun _ hn => by cases hn
      unfold reasonLeft
      rw [if_neg hnone]
      by_cases hkey : isApprove q.data ∨ isReject q.data
      · have hkeeps : ¬Clears cfg q.from_.id ⟨env, .callback q, w⟩ := by
          rintro ⟨-, _, _, _, b, hb, -⟩
          rw [buttonOf_key hkey] at hb
          cases hb
        exact (keyClick_reason hkey hno).trans (if_neg hkeeps).symm
      · refine (handleUpdate_callback_leaves hkey ⟨fun hempty => ?_, fun hkept => ?_⟩).final halive
        · exact if_pos ⟨rfl, hempty⟩
        · exact if_neg fun hclears => hkept hclears.2
  · have hkeeps : ¬Clears cfg id ⟨env, x, w⟩ := fun hclears => hid hclears.1
    have hgives : ¬GivesReason cfg id ⟨env, x, w⟩ := fun hg => hid hg.1
    unfold reasonLeft
    rw [if_neg hkeeps, if_neg hgives]
    cases (handleUpdate_handles cfg env x w).others id (Ne.symm hid) with
    | kept hs => rw [after, World.reason, World.reason, hs]
    | decided hx hkey =>
      subst hx
      exact keyClick_reason hkey hno
    | evicted _ hgone =>
      obtain ⟨-, -, -, hs⟩ := hgone
      exact absurd hs hsession

end Handled

end Chanserv
