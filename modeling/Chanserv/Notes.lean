import Chanserv.Access
import Chanserv.Jira

/-! Notable effects: those reserved for a role, and the start of filing a task.

What the shared programs do besides is `Silent`: it adds nothing notable to the
trace and stops by nothing worse than an exception. -/
namespace Chanserv
open Text Program

/-- The role an effect is reserved for. -/
@[simp] def Effect.privilege : Effect → Option RequiredRole
  | .sendAsBot .. | .runCommand .. | .reboot _ | .broadcastFile _ => some .developer
  | .insertContractor _ | .setMsiVersion _ | .decideKey .. => some .staff
  | _ => none

/-- Privileged effects, and the start of `create_new_issue`. -/
@[simp] def Effect.notable : Effect → Bool
  | .createNewIssue _ => true
  | e => e.privilege.isSome

def Shared.notes (s : Shared) : List Effect := s.trace.filter Effect.notable

@[simp] theorem Shared.notes_log (s : Shared) (e : Effect) :
    (s.log e).notes = s.notes ++ if e.notable then [e] else [] :=
  Shared.filter_log Effect.notable s e

/-- The notes are read off the trace alone. -/
@[simp] theorem Shared.notes_mk (s : Shared) (db : Db) (consumers : List Int)
    (contractors : List Contractor) (allowed : List Int) (notified : List (Text × Text)) :
    Shared.notes ⟨db, consumers, contractors, allowed, notified, s.trace⟩ = s.notes := rfl

abbrev Silent {α : Type} (m : ServiceM α) : Prop :=
  Keeps Shared.notes (fun stop => stop.fatal = false) m

namespace Silent
variable {α : Type} {cfg : Config}

theorem log {e : Effect} (h : e.notable = false) : Silent (log e) :=
  Keeps.writes fun s => by rw [Shared.notes_log, h, if_neg Bool.false_ne_true, List.append_nil]

theorem call {e : Effect} (h : e.notable = false) {r : Answer α} : Silent (call e r) := by
  refine (log h).bind fun _ => ?_
  cases r with
  | returns a => exact Keeps.done a
  | throws x => exact Keeps.fails rfl

theorem sql {e : Effect} (h : e.notable = false) {r : Answer Bool} {f : Db → Db} :
    Silent (sql e r f) := by
  refine (call h).bind fun _ => Keeps.bind (Keeps.guarded fun _ => ?_) fun _ => Keeps.done _
  exact Keeps.writes fun _ => rfl

theorem select {r : Answer Bool} {rows : Db → List α} : Silent (select r rows) :=
  (call rfl).bind fun _ => Keeps.reads.bind fun _ => Keeps.done _

theorem catching {m : ServiceM α} {h : Exn → ServiceM α} (hm : Silent m) (hh : ∀ e, Silent (h e)) :
    Silent (catching m h) :=
  Keeps.handling hm fun stop hstop => by
    cases stop with
    | throws e => exact hh e
    | _ => cases hstop

theorem catchingTg {m h : ServiceM α} (hm : Silent m) (hh : Silent h) : Silent (catchingTg m h) :=
  Keeps.handling hm fun stop hstop => by
    cases stop with
    | throws e =>
      cases e with
      | tgException => exact hh
      | stdException => exact Keeps.fails rfl
    | _ => cases hstop

theorem sendMsgToSupport {info : Text} {kb : Keyboard} {r : Sending} :
    Silent (sendMsgToSupport cfg info kb r) :=
  (call rfl).bind fun _ => Keeps.done _

theorem sendTaskToSupport {info : Text} {task : NewTask} {kb : Keyboard} {r : Sending} :
    Silent (sendTaskToSupport cfg info task kb r) :=
  sendMsgToSupport

theorem sendMsgToStaff {text : Text} {kb : Keyboard} {r : Nat → Sending} :
    Silent (sendMsgToStaff cfg text kb r) :=
  Keeps.forEach fun _ _ => catchingTg ((call rfl).bind fun _ => Keeps.done _) (Keeps.done _)

/-- A thread loses no session, but may end the process. -/
theorem inThread {m : ServiceM α} (hm : Silent m) : Keeps Shared.notes (· ≠ .badAccess) (inThread m) :=
  Keeps.handling hm fun stop hstop => by
    cases stop with
    | throws e => exact Keeps.fails (by decide)
    | _ => cases hstop

/-- A notice to staff, beside other statements. -/
theorem besideNotice {ahead : Nat → Nat} {text : Text} {kb : Keyboard} {r : Nat → Sending} {ms : List (ServiceM Unit)}
    (hms : ∀ m ∈ ms, Silent m) :
    Keeps Shared.notes (· ≠ .badAccess) (besideThread ahead (noticesToStaff cfg text kb r) ms) := by
  refine Keeps.beside (fun t ht => ?_) fun m hm s => ?_
  · obtain ⟨x, -, rfl⟩ := List.mem_map.mp ht
    exact inThread (catchingTg ((call rfl).bind fun _ => Keeps.done _) (Keeps.done _))
  · refine wp_mono (hms m hm s) (fun _ _ h => h) fun stop _ h => ⟨?_, h.2⟩
    rintro rfl
    cases h.1

theorem reloadConsumersList {r : Answer Bool} : Silent (reloadConsumersList r) := by
  refine Keeps.bind ?_ fun _ => select.bind fun _ => ?_
  · exact Keeps.writes fun _ => rfl
  · exact Keeps.writes fun _ => rfl

theorem reloadContractorsList {r : Answer Bool} : Silent (reloadContractorsList r) := by
  refine Keeps.bind ?_ fun _ => select.bind fun _ => ?_
  · exact Keeps.writes fun _ => rfl
  · exact Keeps.writes fun _ => rfl

theorem throwStd : Silent (throwStd : ServiceM α) := Keeps.fails rfl

theorem textAt {v : Json.Value} {key : Text} : Silent (textAt v key) := by
  unfold Chanserv.textAt
  split
  · exact Keeps.done _
  · exact throwStd

theorem createNewCard {listId cardName cardDescription : Text} {r : Answer CurlReply} :
    Silent (createNewCard listId cardName cardDescription r) := by
  refine (call rfl).bind fun reply => ?_
  cases reply with
  | noHandle => exact Keeps.done _
  | failed => exact Keeps.done _
  | answered status body =>
    refine Keeps.ite (Keeps.done _) ?_
    cases body with
    | none => exact Keeps.done _
    | some v => exact textAt.bind fun _ => Keeps.done _

theorem createTask {task : NewTask} {projectName : Text} {r : Answer CurlReply} :
    Silent (createTask task projectName r) := by
  refine (call rfl).bind fun reply => ?_
  cases reply with
  | noHandle => exact Keeps.done _
  | failed => exact Keeps.done _
  | answered status body =>
    refine Keeps.ite (Keeps.done _) ?_
    cases body with
    | none => exact Keeps.done _
    | some v =>
      dsimp only
      split <;> exact Keeps.done _

end Silent

end Chanserv
