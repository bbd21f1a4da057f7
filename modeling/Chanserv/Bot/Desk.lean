import Mathlib.Data.List.Basic

/-! A contractor's desk: the messages of his last list, and the number that decides about clicks on them.

One number says which menu is the last and that an issue is being worked on. A start
needs it to be zero and makes it the message clicked, an end needs it not to be zero. So
an end is accepted on the right messages only as long as the list is of one issue and no
menu comes in between: `right_next_iff` says for every move when. -/
namespace Chanserv

/-- `clicked_msg_id`, and the messages of the list the session remembers. -/
structure Desk where
  clicked : Int := 0
  shown : List Int := []

/-- What happens at the desk. Messages are named by their numbers. -/
inductive Move where
  /-- /start: a menu is sent. -/
  | menu (sent : Int)
  /-- The same, after the session was found idle and created anew. -/
  | restart (sent : Int)
  /-- `my_tasks` -/
  | list (clicked : Int) (sent : List Int)
  /-- `new_task` and `new_family` -/
  | dialog (clicked : Int)
  /-- `start_solving` -/
  | solve (clicked : Int)
  /-- `task_closing` -/
  | close (clicked : Int)
  /-- The session is removed. -/
  | evicted

namespace Desk

/-- A start on this message is accepted. -/
def Solves (d : Desk) (m : Int) : Prop := m ∈ d.shown ∧ d.clicked = 0

/-- An end on this message is accepted. -/
def Closes (d : Desk) (m : Int) : Prop := m ∈ d.shown ∧ d.clicked ≠ 0

instance (d : Desk) (m : Int) : Decidable (d.Solves m) := inferInstanceAs (Decidable (_ ∧ _))

instance (d : Desk) (m : Int) : Decidable (d.Closes m) := inferInstanceAs (Decidable (_ ∧ _))

def next (d : Desk) : Move → Desk
  | .menu sent => {d with clicked := sent}
  | .restart sent => {clicked := sent}
  | .list m sent => if d.clicked = m then {shown := sent} else d
  | .dialog m => if d.clicked = m then {d with clicked := 0} else d
  | .solve m => if d.Solves m then {d with clicked := m} else d
  | .close m => if d.Closes m then {d with clicked := 0} else d
  | .evicted => {}

end Desk

/-- The desk, with what the contractor knows: the messages of his last list, and those on which a
start was accepted since, and no end. -/
structure Shift where
  desk : Desk := {}
  listed : List Int := []
  started : List Int := []

namespace Shift

def next (s : Shift) (mv : Move) : Shift :=
  let desk := s.desk.next mv
  match mv with
  | .list m sent => if s.desk.clicked = m then ⟨desk, sent, []⟩ else {s with desk}
  | .solve m => if s.desk.Solves m then {s with desk, started := m :: s.started} else {s with desk}
  | .close m =>
    if s.desk.Closes m then {s with desk, started := s.started.filter fun x => x ≠ m} else {s with desk}
  | _ => {s with desk}

/-- An end is accepted on a message of the last list exactly when it was started. -/
def Right (s : Shift) : Prop := ∀ m ∈ s.listed, s.desk.Closes m ↔ m ∈ s.started

/-- The condition on a move: a start or an end comes only where the list is of this one message, a
menu only where all issues remembered are started, a dialog or an eviction only where none is. -/
def Meets (s : Shift) : Move → Prop
  | .menu _ => ∀ m ∈ s.desk.shown, m ∈ s.started
  | .restart _ | .evicted => ∀ m ∈ s.listed, m ∉ s.started
  | .list _ _ => True
  | .dialog m => s.desk.clicked = m → ∀ x ∈ s.listed, x ∉ s.started
  | .solve m => s.desk.Solves m → ∀ x ∈ s.listed, x = m
  | .close m => s.desk.Closes m → ∀ x ∈ s.listed, x = m

/-- Messages have numbers, and zero is none. -/
def Numbered : Move → Prop
  | .menu sent | .restart sent => sent ≠ 0
  | .list m sent => m ≠ 0 ∧ 0 ∉ sent
  | .dialog m | .solve m | .close m => m ≠ 0
  | .evicted => True

/-- The list remembered is the last one, unless the session was removed since. -/
structure Consistent (s : Shift) : Prop where
  shown : s.desk.shown = s.listed ∨ s.desk.shown = []
  numbered : 0 ∉ s.listed

variable {s : Shift} {mv : Move}

/-- A click that is not accepted changes nothing. -/
theorem next_refused :
    (∀ m sent, s.desk.clicked ≠ m → s.next (.list m sent) = s) ∧
    (∀ m, s.desk.clicked ≠ m → s.next (.dialog m) = s) ∧
    (∀ m, ¬s.desk.Solves m → s.next (.solve m) = s) ∧ ∀ m, ¬s.desk.Closes m → s.next (.close m) = s := by
  refine ⟨fun m sent h => ?_, fun m h => ?_, fun m h => ?_, fun m h => ?_⟩
  · simp only [Shift.next, Desk.next, if_neg h]
  · simp only [Shift.next, Desk.next, if_neg h]
  · simp only [Shift.next, Desk.next, if_neg h]
  · simp only [Shift.next, Desk.next, if_neg h]

theorem next_accepted :
    (∀ m sent, s.desk.clicked = m → s.next (.list m sent) = ⟨⟨0, sent⟩, sent, []⟩) ∧
    (∀ m, s.desk.clicked = m → s.next (.dialog m) = {s with desk := {s.desk with clicked := 0}}) ∧
    (∀ m, s.desk.Solves m →
      s.next (.solve m) = {s with desk := {s.desk with clicked := m}, started := m :: s.started}) ∧
    ∀ m, s.desk.Closes m → s.next (.close m) =
      {s with desk := {s.desk with clicked := 0}, started := s.started.filter fun x => x ≠ m} := by
  refine ⟨fun m sent h => ?_, fun m h => ?_, fun m h => ?_, fun m h => ?_⟩
  · simp only [Shift.next, Desk.next, if_pos h]
  · simp only [Shift.next, Desk.next, if_pos h]
  · simp only [Shift.next, Desk.next, if_pos h]
  · simp only [Shift.next, Desk.next, if_pos h]

theorem Consistent.next (h : s.Consistent) (hmv : Numbered mv) : (s.next mv).Consistent := by
  obtain ⟨hlist, hdialog, hsolve, hclose⟩ := next_refused (s := s)
  obtain ⟨hlist', hdialog', hsolve', hclose'⟩ := next_accepted (s := s)
  have hshown := h.shown
  have hnumbered := h.numbered
  cases mv with
  | menu sent => exact ⟨hshown, hnumbered⟩
  | restart sent => exact ⟨.inr rfl, hnumbered⟩
  | evicted => exact ⟨.inr rfl, hnumbered⟩
  | list m sent =>
    by_cases hm : s.desk.clicked = m
    · rw [hlist' m sent hm]
      exact ⟨.inl rfl, hmv.2⟩
    · rw [hlist m sent hm]
      exact h
  | dialog m =>
    by_cases hm : s.desk.clicked = m
    · rw [hdialog' m hm]
      exact ⟨hshown, hnumbered⟩
    · rw [hdialog m hm]
      exact h
  | solve m =>
    by_cases hm : s.desk.Solves m
    · rw [hsolve' m hm]
      exact ⟨hshown, hnumbered⟩
    · rw [hsolve m hm]
      exact h
  | close m =>
    by_cases hm : s.desk.Closes m
    · rw [hclose' m hm]
      exact ⟨hshown, hnumbered⟩
    · rw [hclose m hm]
      exact h

theorem Consistent.listed_of_mem (h : s.Consistent) {m : Int} (hm : m ∈ s.desk.shown) :
    s.desk.shown = s.listed := by
  rcases h.shown with hshown | hnone
  · exact hshown
  · rw [hnone] at hm
    cases hm

/-- Where no end is accepted at all, ends are accepted on the right messages if none was started. -/
theorem right_iff_of_idle {listed started : List Int} {d : Desk} (h : ∀ m, ¬d.Closes m) :
    Right ⟨d, listed, started⟩ ↔ ∀ m ∈ listed, m ∉ started := by
  constructor
  · intro hright m hm hstarted
    exact h m ((hright m hm).mpr hstarted)
  · intro hnone m hm
    exact ⟨fun hc => absurd hc (h m), fun hstarted => absurd hstarted (hnone m hm)⟩

theorem not_closes_zero {shown : List Int} (m : Int) : ¬(⟨0, shown⟩ : Desk).Closes m := fun h => h.2 rfl

theorem not_closes_nil {clicked : Int} (m : Int) : ¬(⟨clicked, []⟩ : Desk).Closes m := fun h => by cases h.1

/-- **One move**: where ends are accepted on the right messages, they are after it exactly when it
meets the condition. -/
theorem right_next_iff (hs : s.Consistent) (hright : s.Right) (hmv : Numbered mv) :
    (s.next mv).Right ↔ s.Meets mv := by
  obtain ⟨hlist, hdialog, hsolve, hclose⟩ := next_refused (s := s)
  obtain ⟨hlist', hdialog', hsolve', hclose'⟩ := next_accepted (s := s)
  cases mv with
  | menu sent =>
    constructor
    · intro hnext m hm
      have hlisted : m ∈ s.listed := hs.listed_of_mem hm ▸ hm
      exact (hnext m hlisted).mp ⟨hm, hmv⟩
    · intro hall m hm
      constructor
      · intro hc
        exact hall m hc.1
      · intro hstarted
        exact ⟨((hright m hm).mpr hstarted).1, hmv⟩
  | restart sent => exact right_iff_of_idle not_closes_nil
  | evicted => exact right_iff_of_idle not_closes_nil
  | list m sent =>
    refine ⟨fun _ => trivial, fun _ => ?_⟩
    by_cases hm : s.desk.clicked = m
    · rw [hlist' m sent hm, right_iff_of_idle not_closes_zero]
      exact fun _ _ => List.not_mem_nil
    · rw [hlist m sent hm]
      exact hright
  | dialog m =>
    by_cases hm : s.desk.clicked = m
    · rw [hdialog' m hm, right_iff_of_idle not_closes_zero]
      exact ⟨fun hnone _ => hnone, fun hnone => hnone hm⟩
    · rw [hdialog m hm]
      exact ⟨fun _ h => absurd h hm, fun _ => hright⟩
  | solve m =>
    by_cases hm : s.desk.Solves m
    · have hlisted := hs.listed_of_mem hm.1
      -- The number is zero, so nothing is started yet.
      have hnone : ∀ x ∈ s.listed, x ∉ s.started := fun x hx hstarted =>
        ((hright x hx).mpr hstarted).2 hm.2
      rw [hsolve' m hm]
      constructor
      · intro hnext _ x hx
        have hcloses : (⟨m, s.desk.shown⟩ : Desk).Closes x := ⟨hlisted ▸ hx, hmv⟩
        have hmem := (hnext x hx).mp hcloses
        exact (List.mem_cons.mp hmem).resolve_right (hnone x hx)
      · intro honly x hx
        rw [honly hm x hx]
        exact ⟨fun _ => List.mem_cons_self, fun _ => ⟨hm.1, hmv⟩⟩
    · rw [hsolve m hm]
      exact ⟨fun _ h => absurd h hm, fun _ => hright⟩
  | close m =>
    by_cases hm : s.desk.Closes m
    · have hlisted := hs.listed_of_mem hm.1
      -- The number is not zero, so everything is started.
      have hall : ∀ x ∈ s.listed, x ∈ s.started := fun x hx => (hright x hx).mp ⟨hlisted ▸ hx, hm.2⟩
      rw [hclose' m hm, right_iff_of_idle not_closes_zero]
      constructor
      · intro hnone _ x hx
        by_contra hne
        exact hnone x hx (List.mem_filter.mpr ⟨hall x hx, decide_eq_true hne⟩)
      · intro honly x hx hmem
        exact of_decide_eq_true (List.mem_filter.mp hmem).2 (honly hm x hx)
    · rw [hclose m hm]
      exact ⟨fun _ h => absurd h hm, fun _ => hright⟩

end Shift

end Chanserv
