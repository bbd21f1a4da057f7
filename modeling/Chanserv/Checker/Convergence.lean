import Chanserv.Checker.Tables

/-! Whether a pass brings the table in line with the board.

A card that is pending follows its column: to the contractor of the column, or
out of the table from the column for tasks to be written anew. A card that is
underway is not asked for its column again. It stays with its contractor,
wherever it is moved, until it comes back to the first column. -/
namespace Chanserv
open Text Program

/-- What a pass leaves of a row whose card is open in a column: `rows` are the rows of the card
afterwards, `effects` what the pass did. -/
structure Converges (cfg : Config) (contractors : List Contractor) (listId : Text) (r : IssueRow)
    (rows : List IssueRow) (effects : List Effect) : Prop where
  /-- A pending issue goes to a contractor of its column. -/
  assigned : listId ≠ cfg.distributionList → listId ≠ cfg.reworkList → r.cardStatus = of "pending" →
    (∃ c ∈ contractors, c.trelloList = listId) →
    ∃ c ∈ contractors, c.trelloList = listId ∧ ∃ s, rows = [s] ∧ s.keys = r.keys ∧ s.HeldBy c
  /-- An issue underway stays with its contractor, outside of the first column. -/
  kept : listId ≠ cfg.distributionList → ∀ c, r.HeldBy c →
    ∃ s, rows = [s] ∧ s.keys = r.keys ∧ s.HeldBy c
  /-- In the first column an issue belongs to nobody, unless the column is a contractor's. -/
  freed : listId = cfg.distributionList → listId ≠ cfg.reworkList →
    (∀ c ∈ contractors, c.trelloList ≠ listId) → ∃ s, rows = [s] ∧ s.keys = r.keys ∧ s.Free
  /-- A pending issue to be written anew is removed, and its customer told. -/
  removed : listId = cfg.reworkList → r.cardStatus = of "pending" →
    rows = [] ∧ refusal (toULong r.consumerId) ∈ effects

section
variable {cfg : Config} {contractors : List Contractor} {listId : Text} {r : IssueRow}

theorem back_keys : (r.back cfg listId).keys = r.keys := by
  rw [IssueRow.back]
  split <;> rfl

theorem back_pending (h : r.cardStatus = of "pending") :
    (r.back cfg listId).cardStatus = of "pending" := by
  rw [IssueRow.back]
  split
  · rfl
  · exact h

/-- A row that is not handed back keeps its contractor. -/
theorem back_held {c : Contractor} (hlist : listId ≠ cfg.distributionList) (h : r.HeldBy c) :
    (r.back cfg listId).HeldBy c := by
  rw [IssueRow.back, if_neg fun hn => hlist hn.1]
  exact ⟨h.status, h.list, h.link, h.id, h.name⟩

/-- In the first column every row is free. -/
theorem back_free (h : r.Free ∨ ∃ c, HasColumn c ∧ r.HeldBy c) : (r.back cfg cfg.distributionList).Free := by
  rw [IssueRow.back]
  rcases h with hfree | ⟨c, hc, hheld⟩
  · rw [if_neg fun hn => hn.2 hfree.list]
    exact ⟨hfree.status, hfree.list, hfree.link, hfree.id, hfree.name⟩
  · have hlist : r.contractorList ≠ [] := by
      rw [hheld.list]
      exact hc
    rw [if_pos ⟨rfl, hlist⟩]
    exact ⟨rfl, rfl, rfl, rfl, rfl⟩

theorem exists_owner (h : ∃ c ∈ contractors, c.trelloList = listId) :
    ∃ c, ownerOf contractors listId = some c := by
  obtain ⟨c, hc, hlist⟩ := h
  cases howner : ownerOf contractors listId with
  | some c => exact ⟨c, rfl⟩
  | none =>
    rw [ownerOf, List.find?_eq_none] at howner
    exact absurd (decide_eq_true hlist) (howner c hc)

theorem no_owner (h : ∀ c ∈ contractors, c.trelloList ≠ listId) : ownerOf contractors listId = none := by
  rw [ownerOf, List.find?_eq_none]
  intro c hc
  simpa using h c hc

theorem HeldBy.not_pending {c : Contractor} (h : r.HeldBy c) : r.cardStatus ≠ of "pending" := by
  rw [h.status]
  decide

/-- The customer of a card to be written anew is told so. -/
theorem refusal_seen {v : CardEnv} {k : Text} (hok : v.Succeeds)
    (hstatus : (r.back cfg cfg.reworkList).cardStatus = of "pending") :
    refusal (toULong r.consumerId) ∈ syncedSeen cfg contractors v cfg.reworkList [r] k := by
  have hconsumer : ((r.back cfg cfg.reworkList).owned contractors cfg.reworkList).consumerId =
      r.consumerId := by
    have hback : (r.back cfg cfg.reworkList).consumerId = r.consumerId := by
      rw [IssueRow.back]
      split <;> rfl
    rw [IssueRow.owned]
    split
    · exact hback
    · exact hback
  have hcustomer : customerOf v.rework.selectCustomer
      [(r.back cfg cfg.reworkList).owned contractors cfg.reworkList] = toULong r.consumerId := by
    rw [customerOf, readRow, if_pos hok.rework.selectCustomer, ← hconsumer]
    rfl
  rw [syncedSeen, hok.checkedStatus, if_pos hstatus, hok.recordedList, if_pos rfl, hok.ownedRows,
    reworkedSeen, hcustomer]
  exact List.mem_append_right _ (List.mem_cons_self ..)

/-- One visit converges. -/
theorem synced_converges {effects : List Effect} (horderly : r.Free ∨ ∃ c, HasColumn c ∧ r.HeldBy c)
    (heffects : listId = cfg.reworkList → r.cardStatus = of "pending" →
      refusal (toULong r.consumerId) ∈ effects) :
    Converges cfg contractors listId r (r.synced cfg contractors listId).toList effects := by
  constructor
  · intro _ hrework hstatus hcolumn
    obtain ⟨c, howner⟩ := exists_owner hcolumn
    obtain ⟨hmem, hlist⟩ := owner_list howner
    rw [IssueRow.synced, if_pos (back_pending hstatus), if_neg hrework, IssueRow.owned, howner]
    refine ⟨c, hmem, hlist, _, rfl, ?_, ⟨rfl, rfl, rfl, rfl, rfl⟩⟩
    exact @back_keys cfg listId r
  · intro hlist c hheld
    have hback := @back_held cfg _ _ _ hlist hheld
    rw [IssueRow.synced, if_neg (HeldBy.not_pending hback)]
    exact ⟨_, rfl, back_keys, hback⟩
  · intro hlist hrework hnobody
    have hfree := @back_free cfg _ horderly
    rw [← hlist] at hfree
    rw [IssueRow.synced, if_pos hfree.status, if_neg hrework, IssueRow.owned, no_owner hnobody]
    exact ⟨_, rfl, back_keys, hfree⟩
  · intro hlist hstatus
    rw [IssueRow.synced, if_pos (back_pending hstatus), if_pos hlist]
    exact ⟨rfl, heffects hlist hstatus⟩

/-- **After a pass in which nothing failed, every row whose card is open converged.** -/
theorem pass_converges {env : PassEnv} {board : Board} {c : Checker} (hdaemon : Daemon cfg c)
    (htables : Tables c.sh.db) (hok : env.Succeeds) (hshown : board.Shown env c.sh.db) :
    ∃ c' effects, (checkTheList cfg env).run c = .ok () c' ∧ c'.sh.trace = c.sh.trace ++ effects ∧
      ∀ r ∈ c.sh.db.issues, r.idCard ≠ [] → ∀ card, board r.idCard = some card → card.isClosed = false →
        Converges cfg c.sh.vContractors card.idList r (c'.sh.db.ofCard r.idCard) effects := by
  have horderly := htables.orderly
  have hfate := wp_forall fun r => wp_forall fun hr : r ∈ c.sh.db.issues =>
    wp_forall fun hne : r.idCard ≠ [] =>
      @checkTheList_fate cfg _ _ _ hok hshown hdaemon.nothingToDelete r (horderly.alone r hr hne).1
        (horderly.alone r hr hne).2
  have hall := wp_and (wp_and hfate (@checkTheList_completes cfg _ _ _ hok hshown))
    (@checkTheList_thins cfg env c)
  rw [wp] at hall
  split at hall
  next c' hrun =>
    obtain ⟨⟨hfate, -⟩, hthin⟩ := hall
    obtain ⟨effects, heffects⟩ := hthin.trace
    refine ⟨c', effects, hrun, heffects.symm, ?_⟩
    intro r hr hne card hboard hopen
    obtain ⟨hrows, hpassed, -⟩ := hfate r hr hne
    have hsynced : c'.sh.db.ofCard r.idCard = (r.synced cfg c.sh.vContractors card.idList).toList := by
      rw [hrows, Board.fate, hboard, Option.bind_some, hopen, if_neg Bool.false_ne_true]
    rw [hsynced]
    apply synced_converges (horderly.held r hr)
    intro hlist hstatus
    obtain ⟨es, htrace, hseen, -⟩ := hpassed.seen
    have hes : es = effects := List.append_cancel_left (htrace.symm.trans heffects.symm)
    have hanswers := shown_visit (k := r.idCard) hshown (by
      rw [Db.mem_cardIds, (horderly.alone r hr hne).2]
      exact ⟨(horderly.alone r hr hne).1, List.cons_ne_nil _ _⟩)
    rw [Board.Answers, hboard] at hanswers
    obtain ⟨read, hread, -, hread'⟩ := hanswers
    rw [← hes]
    apply hseen
    rw [visitSeen, hread]
    show _ ∈ syncedSeen cfg c.sh.vContractors _ read.idList [r] r.idCard
    rw [hread', hlist]
    exact refusal_seen (hok.card _) (back_pending hstatus)
  next => exact hall.1.2.elim

/-- A checker with two contractors, and one issue just filed. -/
def twoColumns : Checker where
  sh :=
    { vContractors := [⟨7, of "Иван", of "ivan7", of "ivan"⟩, ⟨8, of "Пётр", of "petr8", of "petr"⟩]
      db := {issues := [{rowOfTask {idCard := of "c", consumerTgId := 5} with id := 300}]} }

theorem twoColumns_tables : Tables twoColumns.sh.db := by
  have hnew : NewCard {} (of "c") := .inr ⟨by decide, fun r hr => absurd hr List.not_mem_nil⟩
  exact @Tables.filed _ _ {idCard := of "c", consumerTgId := 5} _ (.empty rfl) hnew rfl

/-- The issue goes to the contractor of its column. -/
theorem pass_converges_ivan :
    ∃ c' effects, (checkTheList {} (.over (fun _ => some ⟨false, of "ivan"⟩) twoColumns.sh.db)).run
        twoColumns = .ok () c' ∧ c'.sh.trace = effects ∧
      Converges {} twoColumns.sh.vContractors (of "ivan") {rowOfTask {idCard := of "c", consumerTgId := 5} with id := 300}
        (c'.sh.db.ofCard (of "c")) effects := by
  obtain ⟨c', effects, hrun, htrace, h⟩ := @pass_converges {} _ _ _ (.start twoColumns.sh) twoColumns_tables
    (PassEnv.over_succeeds (fun _ => some ⟨false, of "ivan"⟩) _) (Board.shown_over _ _)
  exact ⟨c', effects, hrun, htrace, h _ (List.mem_singleton_self _) (by decide) ⟨false, of "ivan"⟩ rfl rfl⟩

/-- Two passes: the card stands in one contractor's column, then in the other's. -/
def movedBetweenColumns : Checker :=
  final (checkTheList {} (.over (fun _ => some ⟨false, of "petr"⟩) twoColumns.sh.db))
    (final (checkTheList {} (.over (fun _ => some ⟨false, of "ivan"⟩) twoColumns.sh.db)) twoColumns)

/-- The first column is a contractor's, and the card stands in it. -/
def inOwnedFirstColumn (reworkList : Text) : Checker :=
  final (checkTheList {distributionList := of "ivan", reworkList}
    (.over (fun _ => some ⟨false, of "ivan"⟩) twoColumns.sh.db)) twoColumns

/-- A card moved from one contractor's column to another's stays with the first. And a first column that is
a contractor's frees no card: a pending one is assigned, and if it is also the column for tasks to be written
anew, removed. -/
theorem moved_card_not_followed :
    Tables twoColumns.sh.db ∧
      (¬∃ c ∈ movedBetweenColumns.sh.vContractors, c.trelloList = of "petr" ∧
        ∃ s ∈ movedBetweenColumns.sh.db.issues, s.HeldBy c) ∧
      (¬∃ s ∈ (inOwnedFirstColumn (of "again")).sh.db.issues, s.Free) ∧
      (inOwnedFirstColumn (of "ivan")).sh.db.issues = [] := by
  have hlists : ∀ s ∈ movedBetweenColumns.sh.db.issues, s.contractorList = of "ivan" := by
    decide +kernel
  have hassigned : ∀ s ∈ (inOwnedFirstColumn (of "again")).sh.db.issues, s.cardStatus = of "underway" := by
    decide +kernel
  refine ⟨twoColumns_tables, ?_, ?_, by decide +kernel⟩
  · rintro ⟨c, -, hpetr, s, hs, hheld⟩
    have hsame : of "ivan" = of "petr" := (hlists s hs).symm.trans (hheld.list.trans hpetr)
    exact absurd hsame (by decide)
  · rintro ⟨s, hs, hfree⟩
    have hstatus : of "pending" = of "underway" := hfree.status.symm.trans (hassigned s hs)
    exact absurd hstatus (by decide)

end

end Chanserv
