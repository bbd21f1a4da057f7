import Chanserv.Bot.Run

/-! Isolation of sessions.

All handlers write through `uD`, which is set anew several times within one
update and survives it. It is never followed when it points nowhere, and of the
sessions of others a handler touches only that of a requester it decides about. -/
namespace Chanserv
open Text Program

section
variable {cfg : Config} {hist : List Handled} {w : World}

/-- An eviction sets `uD` to null, so it does not outlive the session behind it. -/
theorem evictIdleSessions_sound (h : w.Sound) (now : Int) :
    (final (evictIdleSessions cfg now) w).Sound := by
  refine of_wp (P := fun _ => World.Sound) ?_
  exact wp_mono (evictIdleSessions_cleaned (E := fun _ => World.Sound)) (fun _ _ hc => hc.pointer h)
    fun _ _ => id

/-- In every state a run reaches, `uD` is null or points to a live session, also right
after an eviction. The next update follows it only then, leaves it so, and leaves the
sessions of all others as they are but for a decided request and evictions. -/
theorem session_isolation (hr : Run cfg hist w) :
    w.Sound ∧ (∀ now, (final (evictIdleSessions cfg now) w).Sound) ∧
      ∀ env x, failure (handleUpdate cfg env x) w ≠ some .badAccess ∧
        (final (handleUpdate cfg env x) w).Sound ∧
        ∀ b ≠ x.fromId, Other cfg env x w (final (handleUpdate cfg env x) w) b := by
  refine ⟨hr.sound, evictIdleSessions_sound hr.sound, fun env x => ?_⟩
  have h := handleUpdate_handles cfg env x w
  exact ⟨h.access, h.pointer hr.sound, h.others⟩

end

/-- User 6 asks for a key; 7, of the staff, approves it. -/
def staff7 : Config := {supportTgId := of "5", vStaff := [7]}

def keyUpdates : List (UpdateEnv × Update) :=
  [startFrom 6, clickFrom 6 "req_master_key", textFrom 6 "a wall", textFrom 6 "Ivan",
    startFrom 7].map fun x => (UpdateEnv.calm 0, x)

def approval : UpdateEnv × Update := (UpdateEnv.calm 1, clickFrom 7 "approve_key_request_6")

theorem session_isolation_approval :
    let w := (played staff7 keyUpdates {}).2
    let w' := final (handleUpdate staff7 approval.1 approval.2) w
    ((w.session 6).map (·.jiraTask.keyReason) = some (of "a wall") ∧
      (w'.session 6).map (·.jiraTask.keyReason) = some []) ∧
    w.Sound ∧ (∀ now, (final (evictIdleSessions staff7 now) w).Sound) ∧
      ∀ env x, failure (handleUpdate staff7 env x) w ≠ some .badAccess ∧
        (final (handleUpdate staff7 env x) w).Sound ∧
        ∀ b ≠ x.fromId, Other staff7 env x w (final (handleUpdate staff7 env x) w) b := by
  have hstart : Run staff7 [] {} := .start rfl
  have halive : survives staff7 keyUpdates {} = true := by decide +kernel
  exact ⟨by decide +kernel, session_isolation (hstart.played halive)⟩

end Chanserv
