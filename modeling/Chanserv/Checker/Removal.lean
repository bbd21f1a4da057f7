import Chanserv.Checker.Passes

/-! Which rows a completed pass removes.

A row goes for one of three reasons: Trello does not know its card, the card is
closed, or it stands in the column for tasks to be written anew while the row is
pending. A request that fails in any other way leaves the row as it is. The list
of closed cards outlives the loop that fills it; a process that has not died
enters every pass with an empty one (`Daemon`). -/
namespace Chanserv
open Text Program

/-- The states of a checker between its passes. An exception in a pass ends the process; the tables
and the lists read from them change in any way between two passes. -/
inductive Daemon (cfg : Config) : Checker → Prop
  | start (sh : Shared) : Daemon cfg {sh}
  | pass {c c' : Checker} {env : PassEnv} :
    Daemon cfg c → (checkTheList cfg env).run c = .ok () c' → Daemon cfg c'
  | others {c : Checker} (sh : Shared) : Daemon cfg c → Daemon cfg {c with sh}

theorem of_run {α : Type} {m : CheckerM α} {Q : α → Checker → Prop} {E : Stop → Checker → Prop} {c c' : Checker} {a : α}
    (h : wp m Q E c) (hrun : m.run c = .ok a c') : Q a c' := by
  rw [wp, hrun] at h
  exact h

section
variable {cfg : Config} {env : PassEnv} {c c' : Checker}

/-- A completed pass has deleted the cards collected. -/
theorem checkTheList_deletes (hnone : c.vCardsToDelete = []) :
    wp (checkTheList cfg env) (fun _ c' => c'.vCardsToDelete = []) (fun _ _ => True) c := by
  apply wp_checkTheList
  · intro c₁ _ _
    rw [wp_bind]
    have hall : wp (processEveryCard cfg env) (fun _ _ => True) (fun _ _ => True) c₁ := by
      rw [wp]
      split <;> trivial
    apply wp_mono hall
    · intro _ c₂ _
      exact wp_mono (deleteCards_sweeps [] c₂) (fun _ _ h => h.2) fun _ _ _ => trivial
    · exact fun _ _ h => h
  · exact fun _ h _ _ => h.toDelete.trans hnone
  · exact fun _ _ _ _ => trivial

theorem Daemon.nothingToDelete (h : Daemon cfg c) : c.vCardsToDelete = [] := by
  induction h with
  | start => rfl
  | pass _ hrun ih => exact of_run (checkTheList_deletes ih) hrun
  | others _ _ ih => exact ih

/-! ### The rows a visit leaves -/

variable {contractors : List Contractor} {v : CardEnv} {listId k : Text} {rows : List IssueRow}

/-- The pass found the row pending, and in the column for tasks to be written anew. -/
def FoundForRework (cfg : Config) (k : Text) (v : CardEnv) (rows : List IssueRow) : Prop :=
  ∃ card, cardRead k v.getCard = .returns (.ok card) ∧
    recordedList v card.idList rows = cfg.reworkList ∧
    checkedStatus cfg v card.idList rows = of "pending"

theorem listedRows_keys : (listedRows v listId rows).map IssueRow.keys = rows.map IssueRow.keys := by
  rw [listedRows]
  split
  · rw [List.map_map]
    exact List.map_congr_left fun r _ => listed_keys listId r
  · rfl

theorem clearedRows_keys :
    (clearedRows cfg v listId rows).map IssueRow.keys = rows.map IssueRow.keys := by
  rw [clearedRows]
  split
  · rw [List.map_map, ← @listedRows_keys v listId rows]
    exact List.map_congr_left fun r _ => cleared_keys r
  · exact listedRows_keys

theorem ownedRows_keys :
    (ownedRows cfg contractors v listId rows).map IssueRow.keys = rows.map IssueRow.keys := by
  rw [ownedRows]
  cases ownerOf contractors listId with
  | none => exact clearedRows_keys
  | some c =>
    dsimp only
    rw [assignedRows]
    split
    · rw [List.map_map, ← @clearedRows_keys cfg v listId rows]
      exact List.map_congr_left fun r _ => assigned_keys c r
    · exact clearedRows_keys

/-- A visit keeps the rows of its card, but for a missing card and for one to be written anew. -/
theorem visitRows_keys (hmissing : cardRead k v.getCard ≠ .returns (.error .notFound404))
    (hrework : ¬FoundForRework cfg k v rows) :
    (visitRows cfg contractors k v rows).map IssueRow.keys = rows.map IssueRow.keys := by
  rw [visitRows]
  split
  next card hread =>
    rw [syncedRows]
    split
    next hstatus =>
      rw [if_neg fun hlist => hrework ⟨card, hread, hlist, hstatus⟩]
      exact ownedRows_keys
    next => exact clearedRows_keys
  next hread => exact absurd hread hmissing
  next => rfl

/-- A request that failed, and not because there is no such card, leaves the rows as they are. -/
theorem visitRows_failed {code : TrelloError} (hread : cardRead k v.getCard = .returns (.error code))
    (hcode : code ≠ .notFound404) : visitRows cfg contractors k v rows = rows := by
  rw [visitRows, hread]
  cases code with
  | notFound404 => exact absurd rfl hcode
  | _ => rfl

/-! ### A pass -/

/-- A row alone with its card is as the pass leaves it, visited or not. -/
theorem ofCard_kept (hdaemon : Daemon cfg c) (hrun : (checkTheList cfg env).run c = .ok () c')
    {r : IssueRow} (hr : c.sh.db.ofCard r.idCard = [r])
    (hopen : ¬ReportedClosed r.idCard (env.visit c.sh.db r.idCard)) :
    c'.sh.db.ofCard r.idCard = [r] ∨
      c'.sh.db.ofCard r.idCard =
        visitRows cfg c.sh.vContractors r.idCard (env.visit c.sh.db r.idCard) [r] := by
  have hnone := hdaemon.nothingToDelete
  by_cases hmem : r.idCard ∈ env.ids c.sh.db
  · rw [PassEnv.ids] at hmem
    by_cases hsel : env.selectIds = true
    · rw [if_pos hsel, Db.mem_cardIds] at hmem
      have hpassed := of_run (checkTheList_rows hmem.1 hsel hnone hr) hrun
      exact .inr (hpassed.1.kept hopen)
    · rw [if_neg hsel] at hmem
      cases hmem
  · have hspared := of_run (checkTheList_alone hmem (by rw [hnone]; exact List.not_mem_nil)) hrun
    exact .inl (hspared.ofCard.trans hr)

theorem mem_of_ofCard {r : IssueRow} (h : c'.sh.db.ofCard k = [r]) : r ∈ c'.sh.db.issues := by
  have hmem : r ∈ c'.sh.db.ofCard k := by rw [h]; exact List.mem_singleton_self r
  exact (Keyed.mem_rows.mp hmem).1

/-- **A completed pass removes a row only with reason**, and a request that failed otherwise leaves
its row unchanged. -/
theorem removal_justified (hdaemon : Daemon cfg c)
    (hdistinct : (c.sh.db.issues.map IssueRow.idCard).Nodup)
    (hrun : (checkTheList cfg env).run c = .ok () c') {r : IssueRow} (hr : r ∈ c.sh.db.issues) :
    (r.keys ∉ c'.sh.db.issues.map IssueRow.keys →
      cardRead r.idCard (env.visit c.sh.db r.idCard).getCard = .returns (.error .notFound404) ∨
      ReportedClosed r.idCard (env.visit c.sh.db r.idCard) ∨
      FoundForRework cfg r.idCard (env.visit c.sh.db r.idCard) [r]) ∧
    ∀ code, cardRead r.idCard (env.visit c.sh.db r.idCard).getCard = .returns (.error code) →
      code ≠ .notFound404 → r ∈ c'.sh.db.issues := by
  have hrows : c.sh.db.ofCard r.idCard = [r] := Keyed.rows_of_nodup hdistinct hr
  constructor
  · intro hgone
    by_contra hnot
    rw [not_or, not_or] at hnot
    obtain ⟨hmissing, hopen, hrework⟩ := hnot
    have hkeys : (c'.sh.db.ofCard r.idCard).map IssueRow.keys = [r.keys] := by
      rcases ofCard_kept hdaemon hrun hrows hopen with h | h
      · rw [h]
        rfl
      · rw [h, visitRows_keys hmissing hrework]
        rfl
    have hmem : r.keys ∈ (c'.sh.db.ofCard r.idCard).map IssueRow.keys := by
      rw [hkeys]
      exact List.mem_singleton_self _
    obtain ⟨s, hs, hskeys⟩ := List.mem_map.mp hmem
    exact hgone (List.mem_map.mpr ⟨s, (Keyed.mem_rows.mp hs).1, hskeys⟩)
  · intro code hread hcode
    have hopen : ¬ReportedClosed r.idCard (env.visit c.sh.db r.idCard) := by
      rintro ⟨card, hok, -⟩
      rw [hread] at hok
      cases hok
    rcases ofCard_kept hdaemon hrun hrows hopen with h | h
    · exact mem_of_ofCard h
    · exact mem_of_ofCard (h.trans (visitRows_failed hread hcode))

/-- Trello has no card `c1`, and the request for `c2` fails. -/
def missingAndFailed : PassEnv := .calm fun i => .returns (if i = 0 then .answered 404 none else .failed)

def twoPending : Shared where
  db := {issues := [{idCard := of "c1", cardStatus := of "pending"}, {idCard := of "c2", cardStatus := of "pending"}]}

/-- The first row goes, and the second stays. -/
theorem removal_justified_failed :
    let issues := (final (checkTheList {} missingAndFailed) {sh := twoPending}).sh.db.issues
    {idCard := of "c2", cardStatus := of "pending" : IssueRow} ∈ issues ∧
      {idCard := of "c1", cardStatus := of "pending" : IssueRow}.keys ∉ issues.map IssueRow.keys ∧
      (cardRead (of "c1") (missingAndFailed.visit twoPending.db (of "c1")).getCard = .returns (.error .notFound404) ∨
        ReportedClosed (of "c1") (missingAndFailed.visit twoPending.db (of "c1")) ∨
        FoundForRework {} (of "c1") (missingAndFailed.visit twoPending.db (of "c1"))
          [{idCard := of "c1", cardStatus := of "pending"}]) := by
  have hdistinct : (twoPending.db.issues.map IssueRow.idCard).Nodup := by decide
  have hgone := @removal_justified {} missingAndFailed {sh := twoPending} _ (.start twoPending) hdistinct rfl
    {idCard := of "c1", cardStatus := of "pending"} (by decide)
  have hfailed := @removal_justified {} missingAndFailed {sh := twoPending} _ (.start twoPending) hdistinct rfl
    {idCard := of "c2", cardStatus := of "pending"} (by decide)
  have hkeys : {idCard := of "c1", cardStatus := of "pending" : IssueRow}.keys ∉
      (final (checkTheList {} missingAndFailed) {sh := twoPending}).sh.db.issues.map IssueRow.keys := by decide +kernel
  exact ⟨hfailed.2 .requestFailed (by decide +kernel) (by decide), hkeys, hgone.1 hkeys⟩

end

end Chanserv
