import Chanserv.Bot.KeyMoves
import Chanserv.Bot.Threads

/-! The data of the buttons under a key request.

The two buttons have prefixes of one length, 20 characters, and behind them the id of
the requester. The handler cuts off 20 bytes, whatever they are, and reads a number:
what can not be read ends in an exception that the handler catches. -/
namespace Chanserv
open Text Program

/-- All calls to Telegram under one of the two buttons succeed. -/
structure KeyEnv.TelegramAnswers (env : KeyEnv) : Prop where
  sessionOver : env.sessionOver.Normal
  report : env.report.Normal
  decision : env.decision.Normal
  staff : ∀ i, (env.staff i).Normal

/-! ### The codec -/

theorem requesterId_approve (id : Int) : requesterId (approveCallbackData id) = stol (itoa id) := rfl

theorem requesterId_reject (id : Int) : requesterId (rejectCallbackData id) = stol (itoa id) := rfl

/-- A prefix of twenty bytes and a `long` fit into the 64 bytes of Telegram. -/
theorem callbackData_fits {label : Text} {id : Int} (hlabel : utf8Length label = 20) (hmin : longMin ≤ id)
    (hmax : id ≤ longMax) : utf8Length (label ++ itoa id) ≤ 64 := by
  have hlen := length_itoa_le hmin hmax
  rw [utf8Length_append, utf8Length_itoa, hlabel]
  omega

/-! ### The branch -/

section
variable {cfg : Config} {kenv : KeyEnv} {q : CallbackQuery} {requester now : Int} {c : Chat} {w : World}

theorem KeyEnv.TelegramAnswers.spared (h : kenv.TelegramAnswers) : StaffSpared cfg kenv.staff :=
  fun i _ => (h.staff i).not_throws

/-- Telling the staff in a thread. -/
theorem tellStaff_completes {text : Text} (h : kenv.TelegramAnswers) :
    Completes (inThread (service (sendMsgToStaff cfg text .none kenv.staff))) c := by
  rw [Completes, wp_inThread, wp_service]
  exact wp_mono (sendMsgToStaff_completes h.spared c.sh) (fun _ _ _ => trivial) fun _ _ => False.elim

theorem approveKey_contained (h : kenv.TelegramAnswers) :
    wp (approveKey cfg kenv q requester) (fun _ _ => True) (fun stop _ => stop.fatal = false) c := by
  rw [approveKey, wp_bind, wp_get, wp_guarded]
  refine ⟨fun _ => ?_, fun _ => trivial⟩
  rw [wp_bind, wp_service, wp_log, wp_bind, wp_service]
  refine wp_mono (Silent.insertRevitKeyToDb _) (fun key sh _ => ?_) fun _ _ hstop => hstop.1
  dsimp only
  split
  · simp only [sendMsgToSupport, wp_bind, wp_service, wp_call, wp_pure, clearRequest, wp_modifyTask]
    exact ⟨fun _ _ => trivial, fun x hx => absurd hx h.report.not_throws⟩
  · rw [wp_bind, wp_service, wp_call]
    refine ⟨fun _ _ => ?_, fun x hx => absurd hx h.decision.not_throws⟩
    rw [wp_bind]
    exact wp_mono (tellStaff_completes h) (fun _ _ _ => trivial) fun _ _ => False.elim

theorem rejectKey_completes (h : kenv.TelegramAnswers) : Completes (rejectKey cfg kenv q requester) c := by
  rw [Completes, rejectKey, wp_bind, wp_get, wp_guarded]
  refine ⟨fun _ => ?_, fun _ => trivial⟩
  rw [wp_bind, wp_service, wp_log, wp_bind, wp_service, wp_call]
  refine ⟨fun _ _ => ?_, fun x hx => absurd hx h.decision.not_throws⟩
  rw [wp_bind]
  exact wp_mono (tellStaff_completes h) (fun _ _ _ => trivial) fun _ _ => False.elim

/-- Where the handler goes on, `uD` is null or points to the session of the requester. -/
theorem lookUpRequester_contained (h : kenv.TelegramAnswers) :
    wp (lookUpRequester cfg kenv q requester now)
      (fun _ w' => w'.uD.isSome → ∃ d, w'.At requester d) (fun _ _ => False) w := by
  refine wp_lookUpRequester (fun _ goesOn text hsome => ?_) (fun u _ _ _ => ?_) fun u _ _ w' h' _ _ => ⟨_, h'⟩
  · cases hsome
  · refine wp_mono (approveKey_contained h) (fun _ d _ w' h' _ _ => ⟨d, h'⟩) fun stop d hstop w' h' _ => ?_
    refine ⟨fun _ _ => ⟨d, h'⟩, fun hfatal => ?_⟩
    rw [hstop] at hfatal
    cases hfatal

/-- No exception leaves the branch; without a number in the data it does nothing. -/
theorem keyDecision_contained (h : kenv.TelegramAnswers) :
    wp (keyDecision cfg kenv q now) (fun _ w' => requesterId q.data = none → w' = w) (fun _ _ => False) w := by
  unfold keyDecision
  split
  · exact fun _ => rfl
  · rename_i requester hreq
    rw [wp_bind]
    refine wp_mono (lookUpRequester_contained h) (fun goesOn w₁ hfound => ?_) fun _ _ => id
    rw [wp_bind, wp_get, wp_bind, wp_guarded]
    have hnumber {w' : World} : requesterId q.data = none → w' = w := by
      intro hnone
      rw [hreq] at hnone
      cases hnone
    refine ⟨fun hc => ?_, fun _ => hnumber⟩
    obtain ⟨d, hat⟩ := hfound hc.2.2.1
    exact wp_onSession hat (wp_mono (rejectKey_completes h) (fun _ _ _ _ _ _ => hnumber) fun _ _ => False.elim)

end

/-- **The codec of the buttons**: what both buttons say about a `long` is read as it was, and fits; what
else is sent with their prefixes throws nothing, and changes nothing where no number can be read. -/
theorem key_buttons :
    (∀ id, longMin ≤ id → id ≤ longMax →
      (requesterId (approveCallbackData id) = some id ∧ utf8Length (approveCallbackData id) ≤ 64) ∧
      (requesterId (rejectCallbackData id) = some id ∧ utf8Length (rejectCallbackData id) ≤ 64)) ∧
    ∀ cfg env q now w, KeyEnv.TelegramAnswers env →
      wp (keyDecision cfg env q now) (fun _ w' => requesterId q.data = none → w' = w) (fun _ _ => False) w := by
  refine ⟨fun id hmin hmax => ⟨⟨?_, ?_⟩, ?_, ?_⟩, fun cfg env q now w => keyDecision_contained⟩
  · rw [requesterId_approve, stol_itoa hmin hmax]
  · exact callbackData_fits (by decide) hmin hmax
  · rw [requesterId_reject, stol_itoa hmin hmax]
  · exact callbackData_fits (by decide) hmin hmax

/-- Telegram and the table answer. -/
def answeringKeys : KeyEnv :=
  { sessionOver := .returns (), selectKey := .returns true, generatedKey := of "1234", requestedAt := []
    insertKey := .returns true, commit := .returns true, report := .returns ⟨1, 1⟩, decision := .returns ⟨1, 1⟩
    staff := fun _ => .returns ⟨1, 1⟩ }

/-- The least `long`, and a button without a number. -/
theorem key_buttons_least : requesterId (of "_reject_key_request_-9223372036854775808") = some longMin ∧
    ∃ w' : World, final (keyDecision {} answeringKeys ⟨[], ⟨7, [], []⟩, 1, ⟨7, []⟩, of "approve_key_request_all"⟩ 0) {} = w' ∧
      w' = {} := by
  have hcontained := key_buttons.2 {} answeringKeys ⟨[], ⟨7, [], []⟩, 1, ⟨7, []⟩, of "approve_key_request_all"⟩ 0 {}
    ⟨trivial, trivial, trivial, fun _ => trivial⟩
  refine ⟨(key_buttons.1 longMin (by decide) (by decide)).2.1, _, rfl, ?_⟩
  have hends := of_wp (P := fun _ w' => w' = {}) (wp_mono hcontained (fun _ _ h => h (by decide)) fun _ _ => False.elim)
  exact hends

end Chanserv
