import Chanserv.Bot.Run

/-! Access control over runs.

A right is checked when a click arrives and again at the step a message arrives
at. `Moved` says what can happen in between, so both halves, the effects and the
steps of the sessions, are read off its cases. -/
namespace Chanserv
open Text Program

/-- No session is at a step reserved for a role its user lacks. -/
def Authorised (cfg : Config) (w : World) : Prop :=
  ∀ id u, w.session id = some u → cfg.hasRole id (roleForStep u.jiraTask.stat)

/-- Every privileged effect is one the user has the role for. -/
def Handled.Entitled (cfg : Config) (h : Handled) : Prop :=
  ∀ e ∈ h.effects cfg, ∀ role, e.privilege = some role → cfg.hasRole h.x.fromId role

/-! ### One move -/

section
variable {may : RequiredRole → Prop} {opens : Option Dialog} {menu : Prop} {t t' : NewTask}
  {x : Update} {r : Option Stop} {ns : List Effect}

theorem questionAt_next {stat : Nat} {text : Text} {question : Question}
    (h : questionAt stat text = some question) : 401 ≤ question.next := by
  unfold questionAt at h
  split at h
  case h_10 =>
    split at h
    · cases h
    · cases h; decide
  case h_11 => cases h
  all_goals cases h; decide

/-- The step of a session stays among those its user may take. -/
theorem Moved.step_allowed (h : Moved may opens menu t x r ns t') (hany : may .anyone)
    (ht : may (roleForStep t.stat)) : may (roleForStep t'.stat) := by
  have hdialog {stat : Nat} (hstat : stat = 0 ∨ 401 ≤ stat) : may (roleForStep stat) := by
    rw [roleForStep_dialog hstat]
    exact hany
  cases h with
  | kept | halted | commanded | photographed | teklaMenu => exact ht
  | cleared | halfOpened => exact hdialog (.inl rfl)
  | keyAsked | photosDone => exact hdialog (.inr (Nat.le_of_ble_eq_true rfl))
  | @opened _ _ d => cases d <;> exact hdialog (.inr (Nat.le_of_ble_eq_true rfl))
  | answered h hstat =>
    rcases hstat with rfl | rfl
    · exact ht
    · exact hdialog (.inr (questionAt_next h))
  | named _ hstat =>
    rcases hstat with rfl | rfl
    · exact ht
    · exact hdialog (.inl rfl)
  | filed _ h =>
    rcases h with rfl | ⟨-, hstat⟩
    · exact hdialog (.inl rfl)
    · rw [hstat]
      exact hdialog (by decide)
  | served _ _ h =>
    rcases h with rfl | rfl
    · exact ht
    · exact hdialog (.inl rfl)
  | serviceOpened _ hmay => exact hmay

/-- A move performs no effect its user lacks the role for. -/
theorem Moved.entitled (h : Moved may opens menu t x r ns t') {e : Effect} (he : e ∈ ns)
    {role : RequiredRole} (hrole : e.privilege = some role) : may role := by
  cases h with
  | filed =>
    rw [List.mem_singleton.mp he] at hrole
    cases hrole
  | served hpriv hmay | commanded _ hpriv hmay =>
    rw [List.mem_singleton.mp he, hpriv, Option.some.injEq] at hrole
    exact hrole ▸ hmay
  | _ => cases he

end

/-! ### One update -/

section
variable {cfg : Config} {env : UpdateEnv} {x : Update} {w w' : World} {r : Option Stop}

theorem LookedAt.authorised {now b : Int} {u u' : UserDispatcher} (h : LookedAt now u u')
    (hu : cfg.hasRole b (roleForStep u.jiraTask.stat)) :
    cfg.hasRole b (roleForStep u'.jiraTask.stat) := by
  rw [h.task]
  exact hu

theorem Handles.authorised (h : Handles cfg env x w r w') (hw : Authorised cfg w) :
    Authorised cfg w' := by
  intro b u hu
  by_cases hb : b = x.fromId
  · subst hb
    cases h.own with
    | idle _ _ _ _ hs =>
      rcases hs with hs | ⟨u₀, u', hs, hs', hlook⟩
      · exact hw _ u (hs ▸ hu)
      · rw [hs', Option.some.injEq] at hu
        exact hu ▸ hlook.authorised (hw _ u₀ hs)
    | @moved u₁ u' _ _ harr hs' _ _ _ _ hmoved =>
      rw [hs', Option.some.injEq] at hu
      refine hu ▸ hmoved.step_allowed (isAllowed_anyone _ _) ?_
      cases harr with
      | found hs hlook => exact hlook.authorised (hw _ _ hs)
      | new htask =>
        rw [htask]
        exact isAllowed_anyone _ _
  · cases h.others b hb with
    | kept hs => exact hw b u (hs ▸ hu)
    | decided _ _ _ _ hs hs' hlook =>
      rw [hs', Option.some.injEq] at hu
      exact hu ▸ hlook.authorised (hw b _ hs)
    | evicted _ he =>
      obtain ⟨-, -, -, hs⟩ := he
      rw [hs] at hu
      cases hu

/-- The notable effects of an update are added to those before, and its user has the
roles they need. -/
theorem Handles.notes (h : Handles cfg env x w r w') :
    ∃ es, w'.sh.notes = w.sh.notes ++ es ∧
      ∀ e ∈ es, ∀ role, e.privilege = some role → cfg.hasRole x.fromId role := by
  have hdecision {ks : List Effect} (hks : Decisions cfg x ks) {e : Effect} (he : e ∈ ks)
      {role : RequiredRole} (hrole : e.privilege = some role) : cfg.hasRole x.fromId role := by
    obtain ⟨hstaff, hmay⟩ := hks e he
    rw [hstaff, Option.some.injEq] at hrole
    exact hrole ▸ hmay
  cases h.own with
  | @idle ks _ _ hnotes hks => exact ⟨ks, hnotes, fun e he _ => hdecision hks he⟩
  | @moved _ _ ks ns _ _ _ _ hnotes hks hmoved =>
    refine ⟨ks ++ ns, by rw [hnotes, List.append_assoc], fun e he role hrole => ?_⟩
    rcases List.mem_append.mp he with he | he
    · exact hdecision hks he hrole
    · exact hmoved.entitled he hrole

theorem Handled.effects_spec (h : Handled) :
    (final (handleUpdate cfg h.env h.x) h.before).sh.notes = h.before.sh.notes ++ h.effects cfg ∧
      h.Entitled cfg := by
  obtain ⟨es, hes, hrole⟩ := (handleUpdate_handles cfg h.env h.x h.before).notes
  have heffects : h.effects cfg = es := by rw [Handled.effects, hes, List.drop_left]
  rw [Handled.Entitled, heffects]
  exact ⟨hes, hrole⟩

end

/-! ### Runs -/

section
variable {cfg : Config} {hist : List Handled} {w : World}

theorem Run.authorised (hr : Run cfg hist w) : Authorised cfg w :=
  hr.induct (P := fun _ => Authorised cfg) (fun _ _ _ _ hu => by cases hu)
    (fun _ _ _ hw _ _ _ _ _ hh => hh.authorised hw)
    fun _ _ _ _ hw ha b u hu => hw b u (ha.session b ▸ hu)

/-- All notable effects of a run happened while one of its updates was handled. -/
theorem Run.notes (hr : Run cfg hist w) : w.sh.notes = hist.flatMap (Handled.effects cfg) := by
  refine hr.induct (P := fun hist w => w.sh.notes = hist.flatMap (Handled.effects cfg)) ?_ ?_ ?_
  · intro sh h
    simp [Shared.notes, h]
  · intro hist w _ hw env x w' _ hw' _
    rw [hw', (Handled.effects_spec ⟨env, x, w⟩).1, hw]
    simp
  · exact fun _ _ _ _ hw ha => ha.notes.trans hw

/-- In every run, privileged effects are performed only while an update of a user with
the role is handled, also by an update that ends the process; and no session is at a
step its user may not take. -/
theorem access_control (hr : Run cfg hist w) :
    w.sh.notes = hist.flatMap (Handled.effects cfg) ∧ (∀ h ∈ hist, h.Entitled cfg) ∧
      (∀ env x, Handled.Entitled cfg ⟨env, x, w⟩) ∧ Authorised cfg w :=
  ⟨hr.notes, fun h _ => h.effects_spec.2, fun env x => (Handled.effects_spec ⟨env, x, w⟩).2,
    hr.authorised⟩

end

/-- The developer, number 5, runs a command; user 6 tries to. -/
def developer5 : Config := {supportTgId := of "5"}

def commandUpdates : List (UpdateEnv × Update) :=
  [startFrom 5, startFrom 6, clickFrom 5 "run_command", clickFrom 6 "run_command", textFrom 5 "ls",
    textFrom 6 "ls"].map fun x => (UpdateEnv.calm 0, x)

theorem access_control_commands :
    let (hist, w) := played developer5 commandUpdates {}
    hist.flatMap (Handled.effects developer5) = [.runCommand (of "ls") none] ∧
      w.sh.notes = hist.flatMap (Handled.effects developer5) ∧
      (∀ h ∈ hist, h.Entitled developer5) ∧
      (∀ env x, Handled.Entitled developer5 ⟨env, x, w⟩) ∧ Authorised developer5 w := by
  have hstart : Run developer5 [] {} := .start rfl
  have halive : survives developer5 commandUpdates {} = true := by decide +kernel
  exact ⟨by decide +kernel, access_control (hstart.played halive)⟩

end Chanserv
