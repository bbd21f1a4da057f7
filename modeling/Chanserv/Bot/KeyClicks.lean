import Chanserv.Bot.Isolation
import Chanserv.Bot.Verdicts

/-! When a click on an approve or a reject button is a decision.

The data of the button names a requester. The click is a decision when a member
of staff made it and the requester's session holds a reason then; which message
the button is under does not matter to it. -/
namespace Chanserv
open Text Program

/-! ### Decisions -/

/-- The decision about a session with this reason. -/
def decisionOf (approved : Bool) (requester : Int) (reason : Text) : List Effect :=
  if reason = [] then [] else [.decideKey approved requester]

section
variable {cfg : Config} {kenv : KeyEnv} {q : CallbackQuery} {requester now : Int} {c : Chat} {w : World}

theorem approveKey_notes :
    wp (approveKey cfg kenv q requester)
      (fun _ d => d.sh.notes = c.sh.notes ++ decisionOf true requester c.reason)
      (fun _ d => d.sh.notes = c.sh.notes ++ decisionOf true requester c.reason) c := by
  rw [approveKey, wp_bind, wp_get, wp_guarded]
  constructor
  · intro (hreason : c.reason ≠ [])
    have hlogged : (c.sh.log (.decideKey true requester)).notes = c.sh.notes ++ decisionOf true requester c.reason := by
      rw [Shared.notes_log, decisionOf, if_neg hreason]
      rfl
    rw [wp_bind, wp_service, wp_log, wp_bind, wp_service]
    refine wp_mono (Silent.insertRevitKeyToDb _) (fun key sh hsh => ?_) fun _ sh hsh => hsh.2.trans hlogged
    have hquiet {s : Shared} (h : s.notes = sh.notes) :
        s.notes = c.sh.notes ++ decisionOf true requester c.reason := h.trans (hsh.trans hlogged)
    dsimp only
    split
    · simp only [sendMsgToSupport, wp_bind, wp_service, wp_call, wp_pure, clearRequest, wp_modifyTask]
      exact ⟨fun _ _ => hquiet (by simp), fun _ _ => hquiet (by simp)⟩
    · simp only [wp_bind, wp_service, wp_call, wp_inThread, clearRequest, wp_modifyTask]
      refine ⟨fun _ _ => ?_, fun _ _ => hquiet (by simp)⟩
      refine wp_mono (Silent.sendMsgToStaff _) (fun _ s hs => hquiet (hs.trans (by simp))) ?_
      intro stop s hs
      cases stop with
      | throws e => exact hquiet (hs.2.trans (by simp))
      | _ => cases hs.1
  · intro hnone
    have hreason : c.reason = [] := not_not.mp hnone
    rw [decisionOf, if_pos hreason, List.append_nil]

theorem rejectKey_notes :
    wp (rejectKey cfg kenv q requester)
      (fun _ d => d.sh.notes = c.sh.notes ++ decisionOf false requester c.reason)
      (fun _ d => d.sh.notes = c.sh.notes ++ decisionOf false requester c.reason) c := by
  rw [rejectKey, wp_bind, wp_get, wp_guarded]
  constructor
  · intro (hreason : c.reason ≠ [])
    have hlogged : (c.sh.log (.decideKey false requester)).notes = c.sh.notes ++ decisionOf false requester c.reason := by
      rw [Shared.notes_log, decisionOf, if_neg hreason]
      rfl
    have hquiet {s : Shared} (h : s.notes = (c.sh.log (.decideKey false requester)).notes) :
        s.notes = c.sh.notes ++ decisionOf false requester c.reason := h.trans hlogged
    simp only [wp_bind, wp_service, wp_log, wp_call, wp_inThread, clearRequest, wp_modifyTask]
    refine ⟨fun _ _ => ?_, fun _ _ => hquiet (by simp)⟩
    refine wp_mono (Silent.sendMsgToStaff _) (fun _ s hs => hquiet (hs.trans (by simp))) ?_
    intro stop s hs
    cases stop with
    | throws e => exact hquiet (hs.2.trans (by simp))
    | _ => cases hs.1
  · intro hnone
    have hreason : c.reason = [] := not_not.mp hnone
    rw [decisionOf, if_pos hreason, List.append_nil]

/-- What is decided in the session of a requester; nobody has the id zero. -/
def World.decision (w : World) (approved : Bool) (requester : Int) : List Effect :=
  if requester = 0 then [] else decisionOf approved requester (w.reason requester)

theorem World.decision_of_session {u : UserDispatcher} (hu : w.session requester = some u) (h0 : requester ≠ 0)
    (approved : Bool) : w.decision approved requester = decisionOf approved requester u.jiraTask.keyReason := by
  rw [World.decision, if_neg h0, World.reason_of_session hu]

theorem World.decision_of_absent (hnone : w.session requester = none) (approved : Bool) :
    w.decision approved requester = [] := by
  rw [World.decision, World.reason, hnone]
  simp [decisionOf]

/-- An approval is decided here; for a rejection the session is looked up. -/
theorem lookUpRequester_notes :
    wp (lookUpRequester cfg kenv q requester now)
      (fun goesOn w' =>
        (isApprove q.data → w'.sh.notes = w.sh.notes ++ w.decision true requester) ∧
        (¬isApprove q.data → w'.sh.notes = w.sh.notes ∧ ∀ u, w.session requester = some u →
          goesOn = true ∧ w'.At requester ⟨{u with lastActivity := now}, w'.sh⟩))
      (fun _ w' => isApprove q.data ∧ w'.sh.notes = w.sh.notes ++ w.decision true requester) w := by
  refine wp_lookUpRequester (fun hs goesOn text => ?_) (fun u hu h0 happrove => ?_) fun u hu hno w' h' _ => ?_
  · have hnotes : (w.sh.log (.answerCallbackQuery q.id text)).notes = w.sh.notes := by simp
    refine ⟨fun _ => ?_, fun _ => ⟨hnotes, fun u hu => ?_⟩⟩
    · rw [World.decision_of_absent hs, List.append_nil]
      exact hnotes
    · rw [hs] at hu
      cases hu
  · have hdone {d : Chat} {w' : World} (h' : w'.At requester d)
        (hd : d.sh.notes = w.sh.notes ++ decisionOf true requester u.jiraTask.keyReason) :
        w'.sh.notes = w.sh.notes ++ w.decision true requester := by
      obtain ⟨-, -, -, hsh⟩ := h'
      rw [World.decision_of_session hu h0, hsh]
      exact hd
    refine wp_mono approveKey_notes (fun _ d hd w' h' _ => ?_) fun stop d hd w' h' _ => ⟨fun _ => ?_, fun _ => ?_⟩
    · exact ⟨fun _ => hdone h' hd, fun hno => absurd happrove hno⟩
    · exact ⟨fun _ => hdone h' hd, fun hno => absurd happrove hno⟩
    · exact ⟨happrove, hdone h' hd⟩
  · have hsh : w'.sh = w.sh := by
      obtain ⟨-, -, -, hsh⟩ := h'
      exact hsh
    refine ⟨fun happrove => ?_, fun _ => ⟨congrArg Shared.notes hsh, fun v hv => ⟨rfl, ?_⟩⟩⟩
    · have h0 : requester = 0 := by
        by_contra h0
        exact hno ⟨h0, happrove⟩
      rw [hsh, World.decision, if_pos h0, List.append_nil]
    · rw [hu, Option.some.injEq] at hv
      subst hv
      exact h'.eta

theorem keyDecision_notes (hkey : isApprove q.data ∨ isReject q.data) :
    wp (keyDecision cfg kenv q now)
      (fun _ w' => w'.sh.notes = w.sh.notes ++ (requesterId q.data).elim [] (w.decision (isApprove q.data)))
      (fun _ w' => w'.sh.notes = w.sh.notes ++ (requesterId q.data).elim [] (w.decision (isApprove q.data))) w := by
  unfold keyDecision
  cases hreq : requesterId q.data with
  | none =>
    rw [Option.elim_none, List.append_nil]
    exact rfl
  | some requester =>
    dsimp only
    rw [Option.elim_some, wp_bind]
    by_cases happrove : isApprove q.data = true
    · rw [happrove]
      refine wp_mono lookUpRequester_notes (fun _ w₁ h₁ => ?_) fun _ _ h₁ => h₁.2
      rw [wp_bind, wp_get, wp_bind, wp_guarded]
      exact ⟨fun hc => absurd happrove (isApprove_of_isReject hc.2.2.2), fun _ => h₁.1 happrove⟩
    · rw [eq_false_of_ne_true happrove]
      refine wp_mono (wp_and lookUpRequester_notes lookUpRequester_decided) ?_ fun _ _ h₁ => absurd h₁.1.1 happrove
      rintro goesOn w₁ ⟨⟨-, hsame⟩, hdecided⟩
      obtain ⟨hnotes, hfound⟩ := hsame happrove
      rw [wp_bind, wp_get, wp_bind, wp_guarded]
      constructor
      · rintro ⟨-, h0, hpointer, -⟩
        cases hu : w.session requester with
        | none =>
          rw [(hdecided.absent hu).2] at hpointer
          cases hpointer
        | some u =>
          have hdone {d : Chat} {w₂ : World} (h₂ : w₂.At requester d)
              (hd : d.sh.notes = w₁.sh.notes ++ decisionOf false requester u.jiraTask.keyReason) :
              w₂.sh.notes = w.sh.notes ++ w.decision false requester := by
            obtain ⟨-, -, -, hsh₂⟩ := h₂
            rw [World.decision_of_session hu h0, hsh₂, ← hnotes]
            exact hd
          refine wp_onSession (hfound u hu).2 (wp_mono rejectKey_notes (fun _ d hd w₂ h₂ _ => ?_) fun _ d hd w₂ h₂ _ => ?_)
          all_goals exact hdone h₂ hd
      · intro hno
        have hnone : w.decision false requester = [] := by
          by_cases h0 : requester = 0
          · rw [World.decision, if_pos h0]
          · refine World.decision_of_absent ?_ false
            cases hu : w.session requester with
            | none => rfl
            | some u =>
              obtain ⟨hgoes, a, hpointer, -⟩ := hfound u hu
              exact absurd ⟨hgoes, h0, by rw [hpointer]; rfl, hkey.resolve_left happrove⟩ hno
        change w₁.sh.notes = _
        rw [hnone, List.append_nil]
        exact hnotes

/-- The notable effects of a click on one of the two buttons. -/
theorem keyClick_effects {env : UpdateEnv} (hkey : isApprove q.data ∨ isReject q.data) :
    (⟨env, .callback q, w⟩ : Handled).effects cfg =
      if cfg.hasRole q.from_.id .staff then (requesterId q.data).elim [] (w.decision (isApprove q.data)) else [] := by
  have hnotes : (final (handleUpdate cfg env (.callback q)) w).sh.notes = w.sh.notes ++
      if cfg.hasRole q.from_.id .staff then (requesterId q.data).elim [] (w.decision (isApprove q.data)) else [] := by
    refine keyClick_final (P := fun w' => w'.sh.notes = w.sh.notes ++
      if cfg.hasRole q.from_.id .staff then (requesterId q.data).elim [] (w.decision (isApprove q.data)) else [])
      hkey (fun hrole => ?_) (fun hrole => ?_) fun w₁ w₂ hsh _ h₁ => ?_
    · rw [if_neg hrole, List.append_nil]
    · rw [if_pos hrole]
      exact keyDecision_notes hkey
    · rw [hsh]
      exact h₁
  rw [Handled.effects, hnotes, List.drop_left]

theorem mem_keyClick_effects (env : UpdateEnv) {approved : Bool} {id : Int} (hkey : isApprove q.data ∨ isReject q.data) :
    .decideKey approved id ∈ (⟨env, .callback q, w⟩ : Handled).effects cfg ↔
      cfg.hasRole q.from_.id .staff ∧ requesterId q.data = some id ∧ id ≠ 0 ∧ w.reason id ≠ [] ∧
        approved = isApprove q.data := by
  rw [keyClick_effects hkey]
  cases hreq : requesterId q.data with
  | none =>
    rw [Option.elim_none, ite_self]
    exact ⟨fun h => absurd h List.not_mem_nil, fun h => absurd h.2.1 (Option.some_ne_none id).symm⟩
  | some requester =>
    rw [Option.elim_some, World.decision, decisionOf]
    constructor
    · intro h
      split at h
      case isFalse => cases h
      case isTrue hrole =>
        split at h
        case isTrue => cases h
        case isFalse h0 =>
          split at h
          case isTrue => cases h
          case isFalse hreason =>
            rw [List.mem_singleton, Effect.decideKey.injEq] at h
            obtain ⟨rfl, rfl⟩ := h
            exact ⟨hrole, rfl, h0, hreason, rfl⟩
    · rintro ⟨hrole, hsame, h0, hreason, rfl⟩
      rw [Option.some.injEq] at hsame
      subst hsame
      rw [if_pos hrole, if_neg h0, if_neg hreason]
      exact List.mem_singleton_self _

end

end Chanserv
