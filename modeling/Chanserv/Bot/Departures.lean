import Chanserv.Bot.Provenance

/-! Where issues go.

A row that was filed is rewritten, but nobody loses it: it goes when a contractor
who has its card on his list ends the task, when Trello has no card of its id or has
it in the column of tasks to be written anew, and when its card was found closed. -/
namespace Chanserv
open Text Program

/-- No row is gone. -/
def NoneLost (s s' : Shared) : Prop := s.db.issues ⊆ s'.db.issues

instance : Std.Refl NoneLost := ⟨fun _ => List.Subset.refl _⟩

instance : IsTrans Shared NoneLost := ⟨fun _ _ _ => List.Subset.trans⟩

instance : OfTable NoneLost := ⟨fun h => FewerRows.of_table h.symm⟩

instance : OfFilings NoneLost := .of_filedAs fun {task c d} h => by
  rcases h.table with hsame | hnew
  · exact OfTable.of_table hsame
  · rw [NoneLost, show d.sh.db.issues = _ from congrArg Prod.fst hnew]
    exact List.subset_append_left _ _

/-- Rows are the same as far as what is fixed about them goes. -/
def AllStay (rows rows' : List IssueRow) : Prop := ∀ r ∈ rows, ∃ r' ∈ rows', r'.id = r.id ∧ r'.origin = r.origin

theorem AllStay.refl (rows : List IssueRow) : AllStay rows rows := fun r hr => ⟨r, hr, rfl, rfl⟩

theorem AllStay.map {rows rows' : List IssueRow} {f : IssueRow → IssueRow} (h : AllStay rows rows')
    (hf : ∀ r, (f r).id = r.id ∧ (f r).origin = r.origin) : AllStay rows (rows'.map f) := by
  intro r hr
  obtain ⟨r', hr', hid, horigin⟩ := h r hr
  exact ⟨f r', List.mem_map_of_mem hr', (hf r').1.trans hid, (hf r').2.trans horigin⟩

/-! ### A visit -/

section
variable {cfg : Config} {contractors : List Contractor} {env : CardEnv} {listId : Text} {rows : List IssueRow}

theorem clearedRows_stay : AllStay rows (clearedRows cfg env listId rows) := by
  have hlisted : AllStay rows (listedRows env listId rows) := by
    rw [listedRows]
    split
    · exact (AllStay.refl rows).map fun _ => ⟨rfl, rfl⟩
    · exact .refl rows
  rw [clearedRows]
  split
  · exact hlisted.map fun _ => ⟨rfl, rfl⟩
  · exact hlisted

theorem ownedRows_stay : AllStay rows (ownedRows cfg contractors env listId rows) := by
  rw [ownedRows]
  split
  · rw [assignedRows]
    split
    · exact clearedRows_stay.map fun _ => ⟨rfl, rfl⟩
    · exact clearedRows_stay
  · exact clearedRows_stay

/-- Only the column of tasks to be written anew costs rows. -/
theorem syncedRows_stay (h : recordedList env listId rows ≠ cfg.reworkList) :
    AllStay rows (syncedRows cfg contractors env listId rows) := by
  rw [syncedRows, if_neg h]
  split
  · exact ownedRows_stay
  · exact clearedRows_stay

end

/-- Trello has no such card, or the column recorded for it is that of tasks to be written anew. -/
def CardEnv.Withdraws (cfg : Config) (env : CardEnv) (idCard : Text) (rows : List IssueRow) : Prop :=
  cardRead idCard env.getCard = .returns (.error .notFound404) ∨
    ∃ card, cardRead idCard env.getCard = .returns (.ok card) ∧ recordedList env card.idList rows = cfg.reworkList

section
variable {cfg : Config} {env : CardEnv} {idCard : Text} {c : Checker} {rows : List IssueRow}

theorem visitRows_stay (h : ¬env.Withdraws cfg idCard rows) :
    AllStay rows (visitRows cfg c.sh.vContractors idCard env rows) := by
  rw [visitRows]
  split
  · rename_i card hread
    exact syncedRows_stay fun hlist => h (.inr ⟨card, hread, hlist⟩)
  · rename_i hread
    exact absurd (.inl hread) h
  · exact .refl rows

theorem VisitLeaves.stay {left : List IssueRow} (h : VisitLeaves cfg c.sh.vContractors idCard env rows left)
    (hkept : ¬env.Withdraws cfg idCard rows) : AllStay rows left := by
  rw [VisitLeaves] at h
  split at h
  · rename_i card hread
    rcases h with rfl | ⟨hlist, -⟩
    · exact ownedRows_stay
    · exact absurd (.inr ⟨card, hread, hlist⟩) hkept
  · rw [h]
    exact .refl rows

/-- A visit keeps the rows of all other cards, and of its own if the card is not withdrawn. -/
theorem visit_stays {db : Db} {r : IssueRow} (hr : r ∈ db.issues)
    (h : r.idCard = idCard → ¬env.Withdraws cfg idCard (db.ofCard idCard)) :
    ∃ r' ∈ ((Inspection.visit c idCard env).run cfg db).issues, r'.id = r.id ∧ r'.origin = r.origin := by
  let d : Checker := {c with sh := {c.sh with db}}
  have hdone (d' : Checker) (hcard : r.idCard = idCard → AllStay (db.ofCard idCard) (d'.sh.db.ofCard idCard))
      (hother : r.idCard ≠ idCard → LeftAlone r.idCard d d') :
      ∃ r' ∈ d'.sh.db.issues, r'.id = r.id ∧ r'.origin = r.origin := by
    by_cases hk : r.idCard = idCard
    · obtain ⟨r', hr', hsame⟩ := hcard hk r (Keyed.mem_rows.mpr ⟨hr, hk⟩)
      exact ⟨r', (Keyed.mem_rows.mp hr').1, hsame⟩
    · have hmem : r ∈ d'.sh.db.ofCard r.idCard := (hother hk).shared.ofCard ▸ Keyed.mem_rows_self hr
      exact ⟨r, (Keyed.mem_rows.mp hmem).1, rfl, rfl⟩
  have hvisit := wp_and (@processCard_rows cfg idCard env (db.ofCard idCard) d rfl)
    (wp_forall fun hk : r.idCard ≠ idCard => @processCard_alone cfg r.idCard idCard env hk d)
  refine of_wp (P := fun _ (d' : Checker) => ∃ r' ∈ d'.sh.db.issues, r'.id = r.id ∧ r'.origin = r.origin) ?_
  refine wp_mono hvisit (fun _ d' hd => ?_) fun _ d' hd => ?_
  · exact hdone d' (fun hk => hd.1.rows.ofCard.symm ▸ visitRows_stay (h hk)) hd.2
  · exact hdone d' (fun hk => hd.1.rows.ofCard.stay (h hk)) hd.2

end

/-! ### The end of an issue -/

/-- What takes the issues of a card away. -/
inductive Deed.Takes (cfg : Config) (w : World) (k : Text) : Deed → Prop
  | closed {env : UpdateEnv} {q : CallbackQuery} (hb : buttonOf q.data = some .taskClosing)
      (hlisted : w.Lists q.from_.id k) : Takes cfg w k (.update env (.callback q))
  | withdrawn {c : Checker} {env : CardEnv} (h : env.Withdraws cfg k (w.sh.db.ofCard k)) :
      Takes cfg w k (.inspected (.visit c k env))
  | removed : Takes cfg w k (.inspected (.removal k))

section
variable {cfg : Config} {w : World}

theorem Deed.after_stays (d : Deed) {r : IssueRow} (hr : r ∈ w.sh.db.issues) (h : ¬d.Takes cfg w r.idCard) :
    ∃ r' ∈ (d.after cfg w).sh.db.issues, r'.id = r.id ∧ r'.origin = r.origin := by
  have hsame : ∃ r' ∈ w.sh.db.issues, r'.id = r.id ∧ r'.origin = r.origin := ⟨r, hr, rfl, rfl⟩
  cases d with
  | update env x =>
    by_cases hclosing : ∃ q, x = .callback q ∧ buttonOf q.data = some .taskClosing
    · obtain ⟨q, rfl, hb⟩ := hclosing
      have hunlisted : ¬w.Lists q.from_.id r.idCard := fun hlisted => h (.closed hb hlisted)
      have hspares : wp (handleUpdate cfg env (.callback q)) (fun _ w' => r ∈ w'.sh.db.issues)
          (fun _ w' => r ∈ w'.sh.db.issues) w :=
        closing_spares hb hr hunlisted
      exact ⟨r, of_wp (P := fun _ (w' : World) => r ∈ w'.sh.db.issues) hspares, rfl, rfl⟩
    · have hstays : Stays (OnWorld NoneLost) (handleUpdate cfg env x) :=
        handleUpdate_onWorld (fun _ _ => inferInstance) fun q hx hb => absurd ⟨q, hx, hb⟩ hclosing
      exact ⟨r, of_wp (P := fun _ => OnWorld NoneLost w) (hstays.within w) hr, rfl, rfl⟩
  | job env task =>
    exact ⟨r, of_wp (P := fun _ => OnWorld NoneLost w) ((runTask_onWorld env task).within w) hr, rfl, rfl⟩
  | queued tasks => exact hsame
  | restart sh => exact hsame
  | others db skipped => exact hsame
  | inspected i =>
    cases i with
    | removal idCard =>
      have hk : r.idCard ≠ idCard := by
        rintro rfl
        exact h .removed
      exact ⟨r, List.mem_filter.mpr ⟨hr, decide_eq_true hk⟩, rfl, rfl⟩
    | visit c idCard env =>
      refine visit_stays hr ?_
      rintro rfl hwithdraws
      exact h (.withdrawn hwithdraws)

/-- A row that is gone was there until something took the issues of its card away. -/
theorem gone_by_deed (ds : List Deed) {r : IssueRow} (hr : r ∈ w.sh.db.issues)
    (hgone : ∀ r' ∈ (w.lived cfg ds).sh.db.issues, r'.id = r.id → r'.origin ≠ r.origin) :
    ∃ before d after, ds = before ++ d :: after ∧ d.Takes cfg (w.lived cfg before) r.idCard ∧
      ∃ s ∈ (w.lived cfg before).sh.db.issues, s.id = r.id ∧ s.origin = r.origin := by
  induction ds using List.reverseRecOn with
  | nil => exact absurd rfl (hgone r hr rfl)
  | append_singleton ds d ih =>
    by_cases hthere : ∃ s ∈ (w.lived cfg ds).sh.db.issues, s.id = r.id ∧ s.origin = r.origin
    · obtain ⟨s, hs, hid, horigin⟩ := hthere
      refine ⟨ds, d, [], rfl, ?_, s, hs, hid, horigin⟩
      by_contra hspared
      rw [← IssueRow.idCard_of_origin horigin] at hspared
      obtain ⟨s', hs', hid', horigin'⟩ := d.after_stays hs hspared
      rw [World.lived_concat] at hgone
      exact hgone s' hs' (hid'.trans hid) (horigin'.trans horigin)
    · obtain ⟨before, e, after, rfl, htaken⟩ := ih fun s hs hid horigin => hthere ⟨s, hs, hid, horigin⟩
      exact ⟨before, e, after ++ [d], by simp, htaken⟩

/-- **No issue is lost.** One whose row is gone was there until a contractor who had its card on his list ended the
task, or the checker found the card gone or to be written anew, or removed it, having found it closed before. -/
theorem issue_taken {ds : List Deed} (hremovals : RemovesClosed ds) {r : IssueRow} (hr : r ∈ w.sh.db.issues)
    (hgone : ∀ r' ∈ (w.lived cfg ds).sh.db.issues, r'.id = r.id → r'.origin ≠ r.origin) :
    ∃ before d after, ds = before ++ d :: after ∧ d.Takes cfg (w.lived cfg before) r.idCard ∧
      (d = .inspected (.removal r.idCard) → FoundClosed before r.idCard) ∧
      ∃ s ∈ (w.lived cfg before).sh.db.issues, s.id = r.id ∧ s.origin = r.origin := by
  obtain ⟨before, d, after, rfl, htakes, hthere⟩ := gone_by_deed ds hr hgone
  refine ⟨before, d, after, rfl, htakes, ?_, hthere⟩
  rintro rfl
  exact hremovals before r.idCard after rfl

end

/-- The tasks to be written anew have a column of their own. -/
def rework : Config := {reworkList := of "rework"}

/-- 3 is given the issue, asks for his list, starts on it and ends it. -/
def ended3 : List Deed :=
  [.inspected givenTo3, .update (.calm 0) (startFrom 3), .update (.calm 0) (clickFrom 3 "my_tasks"),
    .update (.calm 0) (clickFrom 3 "start_solving"), .update (.calm 0) (clickFrom 3 "task_closing")]

/-- Trello reports the card of `filed300` closed to a pass. -/
def closedPass : PassEnv := .over (fun _ => some ⟨true, of "three"⟩) filed300.sh.db

def closedVisit : Inspection := .visit {} (of "c1") (closedPass.card 0)

theorem inspects_closedPass :
    Inspects closedPass {} filed300.sh.db [(of "c1", 0)] [closedVisit] [of "c1"] := by
  have hids : (closedPass.ids filed300.sh.db).zipIdx = [(of "c1", 0)] := by decide +kernel
  have hvisited : [(of "c1", 0)] <+: (closedPass.ids filed300.sh.db).zipIdx := ⟨[], hids.symm⟩
  obtain ⟨card, hread, hclosed, -⟩ := Board.answers_reply (fun _ => some ⟨true, of "three"⟩) (of "c1")
  refine ⟨hvisited, .cons ⟨{}, rfl, rfl⟩ .nil, fun _ => hids.symm, List.forall_mem_singleton.mpr ?_⟩
  exact .inr ⟨0, List.mem_singleton_self _, card, hread, hclosed⟩

/-- 3 writes to the bot, the pass removes the card, and 3 writes once more. -/
def removed300 : List Deed :=
  [.update (.calm 0) (startFrom 3)] ++
    (([closedVisit] ++ [of "c1"].map Inspection.removal).map Deed.inspected ++ [.update (.calm 0) (startFrom 3)])

theorem issue_taken_removed : ∃ before d after, removed300 = before ++ d :: after ∧
    d.Takes rework (filed300.lived rework before) row300.idCard ∧
    (d = .inspected (.removal row300.idCard) → FoundClosed before row300.idCard) ∧
    ∃ s ∈ (filed300.lived rework before).sh.db.issues, s.id = row300.id ∧ s.origin = row300.origin := by
  have hwrites : RemovesClosed [.update (.calm 0) (startFrom 3)] := .of_none fun _ => by simp
  have hgone : (filed300.lived rework removed300).sh.db.issues = [] := by decide +kernel
  refine issue_taken (hwrites.append ((inspects_closedPass.removesClosed rfl).append hwrites))
    (List.mem_singleton_self row300) fun r' hr' => ?_
  have hr' : r' ∈ (filed300.lived rework removed300).sh.db.issues := hr'
  rw [hgone] at hr'
  cases hr'

end Chanserv
