import Chanserv.Bot.Ledger

/-! The bot and the list checker over all lives of the bot.

A history is a list of deeds: updates and tasks of the bot, its restarts, visits
of the checker to cards, and what other programs do to the other tables. The
checker's visits stand between any two updates, not only whole passes of it. -/
namespace Chanserv
open Text Program

/-- What a pass of the checker is made of: a visit to a card, from what the checker has in memory,
and the removal of a card it found closed. -/
inductive Inspection where
  | visit (c : Checker) (idCard : Text) (env : CardEnv)
  | removal (idCard : Text)

/-- The table after it. -/
def Inspection.run (cfg : Config) (db : Db) : Inspection → Db
  | visit c idCard env => (final (processCard cfg idCard env) {c with sh := {c.sh with db}}).sh.db
  | removal idCard => db.deleteIssue idCard

inductive Deed where
  | update (env : UpdateEnv) (x : Update)
  | job (env : TaskEnv) (task : Task)
  | queued (tasks : List Task)
  | inspected (i : Inspection)
  /-- The process is gone, and another one begins with this memory. -/
  | restart (sh : Shared)
  /-- Tables other than that of issues are now these, and some numbers of rows are used up. -/
  | others (db : Db) (skipped : Nat)

/-- The state after a deed. -/
def Deed.after (cfg : Config) (w : World) : Deed → World
  | .update env x => final (handleUpdate cfg env x) w
  | .job env task => final (serviceBot (runTask cfg env task)) w
  | .queued tasks => {w with mMainTasks := tasks}
  | .inspected i => {w with sh := {w.sh with db := i.run cfg w.sh.db}}
  | .restart sh => {sh := {sh with db := w.sh.db}}
  | .others db skipped =>
    { w with
      sh := {w.sh with
        db := {db with issues := w.sh.db.issues, nextIssueId := w.sh.db.nextIssueId + skipped}} }

/-- The state after these deeds, one after another. -/
def World.lived (cfg : Config) (w : World) (ds : List Deed) : World := ds.foldl (Deed.after cfg) w

section
variable {cfg : Config} {w : World}

theorem World.lived_append (ds es : List Deed) : w.lived cfg (ds ++ es) = (w.lived cfg ds).lived cfg es :=
  List.foldl_append

theorem World.lived_concat (ds : List Deed) (d : Deed) : w.lived cfg (ds ++ [d]) = d.after cfg (w.lived cfg ds) :=
  List.foldl_concat ..

/-- What a deed keeps, all deeds keep. -/
theorem World.lived_within {R : World → World → Prop} [Std.Refl R] [IsTrans World R]
    (hdeed : ∀ (d : Deed) (w : World), R w (d.after cfg w)) (ds : List Deed) (w : World) : R w (w.lived cfg ds) := by
  induction ds generalizing w with
  | nil => exact Std.Refl.refl w
  | cons d ds ih => exact IsTrans.trans _ _ _ (hdeed d w) (ih (d.after cfg w))

end

/-! ### Passes of the checker -/

/-- A visit of a pass: to this card, with the answers the pass gets about it and the contractors it knows. -/
def VisitOf (env : PassEnv) (contractors : List Contractor) (x : Text × Nat) (i : Inspection) : Prop :=
  ∃ d : Checker, d.sh.vContractors = contractors ∧ i = .visit d x.1 (env.card x.2)

/-- Trello reports the card as closed at one of these visits of the pass. -/
def PassEnv.FindsClosed (env : PassEnv) (visited : List (Text × Nat)) (idCard : Text) : Prop :=
  ∃ i, (idCard, i) ∈ visited ∧ ReportedClosed idCard (env.card i)

/-- The inspections of a pass over a table: the cards it visits, the visits, and the cards it removes then. -/
structure Inspects (env : PassEnv) (c : Checker) (db : Db) (visited : List (Text × Nat)) (visits : List Inspection)
    (removed : List Text) : Prop where
  /-- The cards of the rows, one after another, as far as the pass gets. -/
  inOrder : visited <+: (env.ids db).zipIdx
  visits : List.Forall₂ (VisitOf env c.sh.vContractors) visited visits
  /-- Nothing is removed before all are visited. -/
  last : removed ≠ [] → visited = (env.ids db).zipIdx
  closed : ∀ k ∈ removed, k ∈ c.vCardsToDelete ∨ env.FindsClosed visited k

/-- The visits brought the checker from one state to the other. -/
structure Walked (cfg : Config) (env : PassEnv) (c d : Checker) (visited : List (Text × Nat)) (visits : List Inspection) :
    Prop where
  contractors : d.sh.vContractors = c.sh.vContractors
  db : d.sh.db = visits.foldl (Inspection.run cfg) c.sh.db
  visits : List.Forall₂ (VisitOf env c.sh.vContractors) visited visits

section
variable {env : PassEnv} {c : Checker} {db : Db} {visited : List (Text × Nat)} {visits : List Inspection}
  {removed : List Text}

/-- Each visit is one of a card visited. -/
theorem Inspects.of_mem (h : Inspects env c db visited visits removed) {i : Inspection} (hi : i ∈ visits) :
    ∃ x ∈ visited, VisitOf env c.sh.vContractors x i := by
  obtain ⟨n, hn, rfl⟩ := List.mem_iff_getElem.mp hi
  have hlength := h.visits.length_eq
  exact ⟨visited[n], List.getElem_mem _, h.visits.get (by omega) hn⟩

/-- Each card visited has its visit. -/
theorem Inspects.visit_mem (h : Inspects env c db visited visits removed) {idCard : Text} {i : Nat}
    (hi : (idCard, i) ∈ visited) : ∃ d, .visit d idCard (env.card i) ∈ visits := by
  obtain ⟨n, hn, hni⟩ := List.mem_iff_getElem.mp hi
  have hlength := h.visits.length_eq
  obtain ⟨d, -, hd⟩ := h.visits.get hn (by omega)
  rw [List.get_eq_getElem, List.get_eq_getElem, hni] at hd
  exact ⟨d, hd ▸ List.getElem_mem _⟩

end

section
variable {cfg : Config} {env : PassEnv} {c d d' : Checker} {visited : List (Text × Nat)} {visits : List Inspection}
  {removed : List Text}

/-- One visit more. -/
theorem Walked.visit {x : Text × Nat} (h : Walked cfg env c d visited visits)
    (hfinal : final (processCard cfg x.1 (env.card x.2)) d = d') (hcontractors : d'.sh.vContractors = d.sh.vContractors) :
    Walked cfg env c d' (visited ++ [x]) (visits ++ [.visit d x.1 (env.card x.2)]) where
  contractors := hcontractors.trans h.contractors
  db := by
    rw [List.foldl_append, ← h.db, ← hfinal]
    rfl
  visits := List.rel_append h.visits (.cons ⟨d, h.contractors, rfl⟩ .nil)

/-- The loop goes from card to card, and notes those that are closed. -/
theorem processEveryCard_walks :
    wp (processEveryCard cfg env)
      (fun _ d => (∃ visits, Walked cfg env c d c.vIdCards.zipIdx visits) ∧
        ∀ k ∈ d.vCardsToDelete, k ∈ c.vCardsToDelete ∨ env.FindsClosed c.vIdCards.zipIdx k)
      (fun _ d => ∃ visited visits, visited <+: c.vIdCards.zipIdx ∧ Walked cfg env c d visited visits) c := by
  let Gone (n : Nat) (d : Checker) : Prop :=
    (∃ visits, Walked cfg env c d (c.vIdCards.zipIdx.take n) visits) ∧
      ∀ k ∈ d.vCardsToDelete, k ∈ c.vCardsToDelete ∨ env.FindsClosed (c.vIdCards.zipIdx.take n) k
  have hstart : Gone 0 c := ⟨⟨[], rfl, rfl, .nil⟩, fun _ hk => .inl hk⟩
  rw [processEveryCard, wp_bind, wp_get]
  refine wp_mono (wp_forEach_steps (I := Gone) ?_ hstart) (fun _ d h => ?_) fun _ _ h => h
  · rintro n ⟨idCard, i⟩ hx d ⟨⟨visits, hwalked⟩, hnoted⟩
    have hnext : c.vIdCards.zipIdx.take (n + 1) = c.vIdCards.zipIdx.take n ++ [(idCard, i)] := by
      rw [List.take_add_one, hx, Option.toList_some]
    refine wp_mono (wp_run (processCard_rows rfl)) (fun _ d' h => ?_) fun stop d' h => ?_
    · have hvisit := hwalked.visit (x := (idCard, i)) (final_of_ok h.1) h.2.rows.contractors
      rw [← hnext] at hvisit
      refine ⟨⟨_, hvisit⟩, fun k hk => ?_⟩
      rw [hnext]
      rcases (h.2.toDelete k).mp hk with hk | ⟨rfl, hclosed⟩
      · refine (hnoted k hk).imp_right ?_
        rintro ⟨j, hj, hclosed⟩
        exact ⟨j, List.mem_append_left _ hj, hclosed⟩
      · exact .inr ⟨i, List.mem_append_right _ (List.mem_singleton_self _), hclosed⟩
    · have hfinal : final (processCard cfg idCard (env.card i)) d = d' := by simp only [final, h.1]
      have hvisit := hwalked.visit (x := (idCard, i)) hfinal h.2.rows.contractors
      rw [← hnext] at hvisit
      exact ⟨_, _, List.take_prefix _ _, hvisit⟩
  · have hall := List.take_length (l := c.vIdCards.zipIdx)
    have h : Gone c.vIdCards.zipIdx.length d := h
    simp only [Gone, hall] at h
    exact h

/-- The rows of the cards noted go one card after another. -/
theorem deleteCards_removes :
    wp (deleteCards env)
      (fun _ d => ∃ removed : List Text, (∀ k ∈ removed, k ∈ c.vCardsToDelete) ∧
        d.sh.db = (removed.map Inspection.removal).foldl (Inspection.run cfg) c.sh.db)
      (fun _ _ => False) c := by
  let Removed (s : Shared) : Prop := ∃ removed : List Text, (∀ k ∈ removed, k ∈ c.vCardsToDelete) ∧
    s.db = (removed.map Inspection.removal).foldl (Inspection.run cfg) c.sh.db
  have hstart : Removed c.sh := ⟨[], List.forall_mem_nil _, rfl⟩
  rw [deleteCards, wp_bind, wp_get, wp_bind, wp_serviceChecker]
  refine wp_mono (wp_forEach (I := Removed) (E := fun _ _ => False) ?_ hstart) ?_ fun _ _ hf => hf.elim
  · rintro ⟨cardId, i⟩ hx s ⟨removed, hnoted, hdb⟩
    have hmem : cardId ∈ c.vCardsToDelete := (List.mem_zipIdx hx).2.2 ▸ List.getElem_mem _
    rw [wp_bind, deleteIssueFromDb, wp_sql_returns]
    cases env.deleteClosed i with
    | true =>
      refine ⟨removed ++ [cardId], List.forall_mem_append.mpr ⟨hnoted, List.forall_mem_singleton.mpr hmem⟩, ?_⟩
      rw [List.map_append, List.foldl_append, ← hdb]
      rfl
    | false => exact ⟨removed, hnoted, hdb⟩
  · intro _ s hs
    rw [wp_bind, wp_modify, wp_bind, wp_serviceChecker, wp_call_returns]
    exact hs

/-- A pass, completed or not, is a list of inspections; a completed one visited all cards. -/
theorem checkTheList_inspects :
    wp (checkTheList cfg env)
      (fun _ d => ∃ visits, ∃ removed : List Text, Inspects env c c.sh.db (env.ids c.sh.db).zipIdx visits removed ∧
        d.sh.db = (visits ++ removed.map Inspection.removal).foldl (Inspection.run cfg) c.sh.db)
      (fun _ d => ∃ visited visits, Inspects env c c.sh.db visited visits [] ∧
        d.sh.db = visits.foldl (Inspection.run cfg) c.sh.db) c := by
  have hwalked {c₁ d : Checker} {visited : List (Text × Nat)} {visits : List Inspection} (h : Begun env c c₁)
      (hw : Walked cfg env c₁ d visited visits) :
      Walked cfg env c d visited visits :=
    ⟨hw.contractors.trans h.idle.contractors, h.idle.db ▸ hw.db, h.idle.contractors ▸ hw.visits⟩
  apply wp_checkTheList
  · intro c₁ h _
    rw [wp_bind]
    refine wp_mono (processEveryCard_walks (c := c₁)) ?_ ?_
    · rintro _ d ⟨⟨visits, hw⟩, hnoted⟩
      rw [h.ids] at hw hnoted
      have hw := hwalked h hw
      refine wp_mono (@deleteCards_removes cfg env d) ?_ fun _ _ hf => hf.elim
      rintro _ d' ⟨removed, hremoved, hdb⟩
      refine ⟨visits, removed, ⟨List.prefix_refl _, hw.visits, fun _ => rfl, fun k hk => ?_⟩, ?_⟩
      · rw [← h.toDelete]
        exact hnoted k (hremoved k hk)
      · rw [hdb, hw.db, List.foldl_append]
    · rintro _ d ⟨visited, visits, hinOrder, hw⟩
      rw [h.ids] at hinOrder
      have hw := hwalked h hw
      exact ⟨visited, visits, ⟨hinOrder, hw.visits, fun hne => absurd rfl hne, List.forall_mem_nil _⟩, hw.db⟩
  · intro c₁ h hids _
    refine ⟨[], [], ⟨List.prefix_refl _, ?_, fun hne => absurd rfl hne, List.forall_mem_nil _⟩, h.idle.db⟩
    rw [hids]
    exact .nil
  · intro _ c₁ h _
    exact ⟨[], [], ⟨List.nil_prefix, .nil, fun hne => absurd rfl hne, List.forall_mem_nil _⟩, h.idle.db⟩

theorem World.lived_inspected (is : List Inspection) (w : World) : w.lived cfg (is.map .inspected) =
    {w with sh := {w.sh with db := is.foldl (Inspection.run cfg) w.sh.db}} := by
  induction is generalizing w with
  | nil => rfl
  | cons i is ih => exact ih _

/-- **So a pass is part of a history.** It visits the cards of the rows in order, with the answers it gets and the
contractors it knows, and removes then cards it found closed, or had noted before. -/
theorem pass_lived (cfg : Config) (env : PassEnv) (c : Checker) (w : World) :
    let c₀ : Checker := {c with sh := {c.sh with db := w.sh.db}}
    ∃ visited visits, ∃ removed : List Text, Inspects env c w.sh.db visited visits removed ∧
      (failure (checkTheList cfg env) c₀ = none → visited = (env.ids w.sh.db).zipIdx) ∧
      w.lived cfg ((visits ++ removed.map Inspection.removal).map .inspected) =
        {w with sh := {w.sh with db := (final (checkTheList cfg env) c₀).sh.db}} := by
  intro c₀
  have hpass : wp (checkTheList cfg env)
      (fun _ d => ∃ visited visits, ∃ removed : List Text, Inspects env c w.sh.db visited visits removed ∧
        visited = (env.ids w.sh.db).zipIdx ∧
        d.sh.db = (visits ++ removed.map Inspection.removal).foldl (Inspection.run cfg) w.sh.db)
      (fun _ d => ∃ visited visits, ∃ removed : List Text, Inspects env c w.sh.db visited visits removed ∧
        d.sh.db = (visits ++ removed.map Inspection.removal).foldl (Inspection.run cfg) w.sh.db) c₀ := by
    refine wp_mono (@checkTheList_inspects cfg env c₀) ?_ ?_
    · rintro _ d ⟨visits, removed, h, hdb⟩
      exact ⟨_, visits, removed, ⟨h.inOrder, h.visits, h.last, h.closed⟩, rfl, hdb⟩
    · rintro stop d ⟨visited, visits, h, hdb⟩
      refine ⟨visited, visits, [], ⟨h.inOrder, h.visits, h.last, h.closed⟩, ?_⟩
      rw [List.map_nil, List.append_nil]
      exact hdb
  have hlived {d : Checker} {is : List Inspection} (hdb : d.sh.db = is.foldl (Inspection.run cfg) w.sh.db) :
      w.lived cfg (is.map .inspected) = {w with sh := {w.sh with db := d.sh.db}} := by
    rw [World.lived_inspected, ← hdb]
  refine of_wp (P := fun stop (d : Checker) => ∃ visited visits, ∃ removed : List Text,
    Inspects env c w.sh.db visited visits removed ∧ (stop = none → visited = (env.ids w.sh.db).zipIdx) ∧
      w.lived cfg ((visits ++ removed.map Inspection.removal).map .inspected) = {w with sh := {w.sh with db := d.sh.db}})
    (wp_mono hpass ?_ ?_)
  · rintro _ d ⟨visited, visits, removed, h, hall, hdb⟩
    exact ⟨visited, visits, removed, h, fun _ => hall, hlived hdb⟩
  · rintro stop d ⟨visited, visits, removed, h, hdb⟩
    exact ⟨visited, visits, removed, h, fun hn => (by cases hn), hlived hdb⟩

end

/-! ### Removals -/

/-- Trello reported the card as closed at a visit of the checker. -/
def FoundClosed (ds : List Deed) (idCard : Text) : Prop :=
  ∃ c env, .inspected (.visit c idCard env) ∈ ds ∧ ReportedClosed idCard env

/-- The checker removes only cards it found closed before. -/
def RemovesClosed (ds : List Deed) : Prop :=
  ∀ before idCard after, ds = before ++ .inspected (.removal idCard) :: after → FoundClosed before idCard

section
variable {env : PassEnv} {c : Checker} {db : Db} {visited : List (Text × Nat)} {visits : List Inspection}
  {removed : List Text} {ds es : List Deed}

theorem RemovesClosed.append (h : RemovesClosed ds) (h' : RemovesClosed es) : RemovesClosed (ds ++ es) := by
  intro before k after heq
  rcases List.append_eq_append_iff.mp heq with ⟨rest, rfl, hrest⟩ | ⟨rest, rfl, hrest⟩
  · obtain ⟨d, env, hvisit, hclosed⟩ := h' rest k after hrest
    exact ⟨d, env, List.mem_append_right _ hvisit, hclosed⟩
  · cases rest with
    | nil =>
      obtain ⟨_, _, hnone, -⟩ := h' [] k after hrest.symm
      exact absurd hnone List.not_mem_nil
    | cons d rest =>
      obtain ⟨rfl, -⟩ := List.cons.inj hrest
      exact h before k rest rfl

/-- Deeds none of which is a removal. -/
theorem RemovesClosed.of_none (h : ∀ idCard, .inspected (.removal idCard) ∉ ds) : RemovesClosed ds := by
  rintro before k after rfl
  exact absurd (List.mem_append_right _ List.mem_cons_self) (h k)

/-- What comes before a removal has all that comes before the removals. -/
theorem before_removal {k : Text} {first before after : List Deed}
    (heq : first ++ es = before ++ .inspected (.removal k) :: after) (hnone : .inspected (.removal k) ∉ first) :
    ∃ rest, before = first ++ rest ∧ es = rest ++ .inspected (.removal k) :: after := by
  rcases List.append_eq_append_iff.mp heq with ⟨rest, hbefore, hes⟩ | ⟨rest, rfl, hrest⟩
  · exact ⟨rest, hbefore, hes⟩
  · cases rest with
    | nil =>
      rw [List.append_nil]
      exact ⟨[], (List.append_nil before).symm, hrest.symm⟩
    | cons d rest =>
      obtain ⟨rfl, -⟩ := List.cons.inj hrest
      exact absurd (List.mem_append_right _ List.mem_cons_self) hnone

/-- So do passes that begin with nothing noted, as those of a process do once one was completed. -/
theorem Inspects.removesClosed (h : Inspects env c db visited visits removed) (hnone : c.vCardsToDelete = []) :
    RemovesClosed ((visits ++ removed.map Inspection.removal).map Deed.inspected) := by
  have hvisits (k : Text) : Deed.inspected (.removal k) ∉ visits.map Deed.inspected := by
    intro hmem
    obtain ⟨i, hi, hik⟩ := List.mem_map.mp hmem
    obtain ⟨x, -, d, -, rfl⟩ := h.of_mem hi
    cases hik
  intro before k after heq
  rw [List.map_append] at heq
  obtain ⟨rest, rfl, hrest⟩ := before_removal heq (hvisits k)
  have hk : k ∈ removed := by
    have hmem : Deed.inspected (.removal k) ∈ (removed.map Inspection.removal).map Deed.inspected := by
      rw [hrest]
      exact List.mem_append_right _ List.mem_cons_self
    obtain ⟨_, hi, hik⟩ := List.mem_map.mp hmem
    obtain ⟨j, hj, rfl⟩ := List.mem_map.mp hi
    cases hik
    exact hj
  rcases h.closed k hk with hnoted | ⟨i, hi, hclosed⟩
  · rw [hnone] at hnoted
    cases hnoted
  · obtain ⟨d, hd⟩ := h.visit_mem hi
    exact ⟨d, env.card i, List.mem_append_left _ (List.mem_map_of_mem hd), hclosed⟩

end

/-! ### Numbers -/

section
variable {cfg : Config} {w : World}

theorem Inspection.run_books (i : Inspection) (s : Shared) : Books CardEdit s {s with db := i.run cfg s.db} := by
  cases i with
  | visit c idCard env =>
    exact of_wp (P := fun _ (c' : Checker) => Books CardEdit s c'.sh)
      (processCard_books cfg idCard env {c with sh := {c.sh with db := s.db}})
  | removal idCard => exact .single (.deletes _)

/-- Every deed keeps the ledger. -/
theorem Deed.after_books (d : Deed) (w : World) : OnWorld (Books CardEdit) w (d.after cfg w) := by
  have hbot {s s' : Shared} (h : Books NoEdit s s') : Books CardEdit s s' :=
    Numbered.Leads.mono (fun _ => id) (fun _ hf => hf.elim) h
  cases d with
  | update env x => exact hbot (handleUpdate_books env x w)
  | job env task => exact hbot (runTask_books env task w)
  | queued tasks => exact .refl
  | inspected i => exact i.run_books w.sh
  | restart sh => exact .refl
  | others db skipped => exact .single (.skip (show w.sh.db.nextIssueId ≤ w.sh.db.nextIssueId + skipped by omega))

theorem World.lived_books (ds : List Deed) (w : World) : OnWorld (Books CardEdit) w (w.lived cfg ds) :=
  World.lived_within Deed.after_books ds w

theorem World.lived_inOrder (h : w.sh.db.ledger.InOrder IssueRow.id) (ds : List Deed) :
    (w.lived cfg ds).sh.db.ledger.InOrder IssueRow.id :=
  (World.lived_books ds w).inOrder (fun _ hf r => (CardEdit.fixed hf r).1) h

/-- **A number is that of one issue for ever.** However the bot, its restarts and the checker follow one
another, the rows stand in the order of their numbers (in the list that models the table: a table has no order);
a row of the same number later is of the same customer and card and has the same texts; and a number whose row is
gone is not given again. -/
theorem number_names_one_issue (h : w.sh.db.ledger.InOrder IssueRow.id) (ds es : List Deed) :
    let w₁ := w.lived cfg ds
    let w₂ := w₁.lived cfg es
    w₁.sh.db.issues.Pairwise (fun r s => r.id < s.id) ∧
      (∀ r ∈ w₁.sh.db.issues, ∀ r' ∈ w₂.sh.db.issues, r'.id = r.id → r'.origin = r.origin) ∧
      ∀ n < w₁.sh.db.nextIssueId, (∀ r ∈ w₁.sh.db.issues, r.id ≠ n) → ∀ r' ∈ w₂.sh.db.issues, r'.id ≠ n := by
  intro w₁ w₂
  have horder : w₁.sh.db.ledger.InOrder IssueRow.id := World.lived_inOrder h ds
  have hlater : Numbered.Later IssueRow.id IssueRow.origin w₁.sh.db.ledger w₂.sh.db.ledger :=
    (World.lived_books es w₁).later fun _ hf r => CardEdit.fixed hf r
  exact ⟨horder.increasing, fun r hr r' hr' => hlater.same horder hr hr', fun n hn => hlater.gone hn⟩

end

/-- An issue nobody has yet. -/
def row300 : IssueRow := {id := 300, idCard := of "c1", cardStatus := of "pending"}

def filed300 : World := {sh := {db := {issues := [row300], nextIssueId := 301}}}

/-- Its card is closed, and it is gone for good. -/
theorem number_names_one_issue_removed :
    let w₁ := filed300.lived {} [.inspected (.removal (of "c1"))]
    ∀ es : List Deed, ∀ r ∈ (w₁.lived {} es).sh.db.issues, r.id ≠ 300 := by
  intro w₁ es
  have horder : filed300.sh.db.ledger.InOrder IssueRow.id := ⟨by decide +kernel, by decide +kernel⟩
  exact (number_names_one_issue horder [.inspected (.removal (of "c1"))] es).2.2 300 (by decide +kernel) (by decide +kernel)

end Chanserv
