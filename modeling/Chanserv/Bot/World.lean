import Chanserv.Access
import Chanserv.Outside
import Chanserv.SessionStore

/-! The bot's state, and programs over it.

Handlers work on the session behind the one pointer `uD`. What a handler does
between two assignments of `uD` is a program over a `Chat`, the session and the
shared state; `onSession` runs it on the session `uD` points to, and fails when
there is none. `selectSession` is `uD = uniq_data(id)`. -/
namespace Chanserv
open Text Program

/-- The session `uD` points to, and what all handlers share. -/
structure Chat where
  ud : UserDispatcher
  sh : Shared

abbrev ChatM := EStateM Stop Chat

/-- A task for the main thread. -/
inductive Task where
  | jiraWebhook (requestUrl : Text)
  | qtBgWorker
deriving DecidableEq, Repr

structure World where
  uD : Option SessionPtr := none
  mSessions : SessionStore := .empty
  mLastSessionsCleanup : Int := 0
  mMainTasks : List Task := []
  sh : Shared := {}

abbrev BotM := EStateM Stop World

namespace World

/-- The session of a user. -/
def session (w : World) (id : Int) : Option UserDispatcher := w.mSessions.session id

/-- The object behind `uD`; none when it is null or dangling. -/
def current (w : World) : Option (SessionPtr × UserDispatcher) :=
  match w.uD with
  | none => none
  | some p => (w.mSessions.deref p).map fun u => (p, u)

/-- The chat behind `p`, written back. -/
def put (w : World) (p : SessionPtr) (c : Chat) : World :=
  {w with mSessions := w.mSessions.assign p c.ud, sh := c.sh}

end World

section
variable {α : Type}

/-- Part of a handler that leaves the session alone. -/
def service (m : ServiceM α) : ChatM α := zoom Chat.sh (fun sh c => {c with sh}) m

def serviceBot (m : ServiceM α) : BotM α := zoom World.sh (fun sh w => {w with sh}) m

def modifySession (f : UserDispatcher → UserDispatcher) : ChatM Unit :=
  modify fun c => {c with ud := f c.ud}

def modifyTask (f : NewTask → NewTask) : ChatM Unit :=
  modifySession fun u => {u with jiraTask := f u.jiraTask}

/-- Part of a handler between two assignments of `uD`. -/
def onSession (m : ChatM α) : BotM α := fun w =>
  match w.current with
  | none => .error .badAccess w
  | some (p, u) =>
    match m.run ⟨u, w.sh⟩ with
    | .ok a c => .ok a (w.put p c)
    | .error e c => .error e (w.put p c)

end

theorem run_onSession {α : Type} (m : ChatM α) (w : World) :
    (onSession m).run w =
      match w.current with
      | none => .error .badAccess w
      | some (p, u) =>
        match m.run ⟨u, w.sh⟩ with
        | .ok a c => .ok a (w.put p c)
        | .error e c => .error e (w.put p c) := rfl

section
variable {α : Type} {Q : α → Chat → Prop} {E : Stop → Chat → Prop} {c : Chat}

@[simp] theorem wp_service (m : ServiceM α) :
    wp (service m) Q E c ↔
      wp m (fun a sh => Q a {c with sh}) (fun e sh => E e {c with sh}) c.sh :=
  wp_zoom

@[simp] theorem wp_modifySession (f : UserDispatcher → UserDispatcher) {Q : Unit → Chat → Prop} :
    wp (modifySession f) Q E c ↔ Q () {c with ud := f c.ud} := Iff.rfl

@[simp] theorem wp_modifyTask (f : NewTask → NewTask) {Q : Unit → Chat → Prop} :
    wp (modifyTask f) Q E c ↔ Q () {c with ud := {c.ud with jiraTask := f c.ud.jiraTask}} := Iff.rfl

end

/-- `uD = uniq_data(id)`, and whether there is a session. -/
def selectSession (now : Int) (id : Int) : BotM Bool := do
  let w ← get
  let (p, store) := w.mSessions.find id now
  modify fun w => {w with uD := p, mSessions := store}
  pure p.isSome

/-- `is_allowed` with what the settings and the staff table say about a user. -/
def Config.hasRole (cfg : Config) (id : Int) (role : RequiredRole) : Bool :=
  isAllowed role (cfg.isStaff id) (cfg.isDeveloper id)

end Chanserv
