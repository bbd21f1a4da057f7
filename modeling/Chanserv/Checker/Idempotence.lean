import Chanserv.Checker.Board

/-! A second pass over an unchanged board changes nothing.

A pass leaves every row at rest (`Rests`): its column is recorded, it has no
contractor where it should have none, and if it is still pending its column
belongs to nobody. A pass over rows at rest writes them as they are and writes to
nobody. -/
namespace Chanserv
open Text Program

section
variable {cfg : Config} {contractors : List Contractor} {listId : Text} {board : Board}

/-- A row a pass leaves as it is. -/
def Rests (cfg : Config) (contractors : List Contractor) (board : Board) (r : IssueRow) : Prop :=
  ∃ card, board r.idCard = some card ∧ card.isClosed = false ∧ r.back cfg card.idList = r ∧
    (r.cardStatus = of "pending" → ownerOf contractors card.idList = none ∧ card.idList ≠ cfg.reworkList)

/-! ### A visit leaves a row at rest -/

theorem back_idCard (cfg : Config) (listId : Text) (r : IssueRow) :
    (r.back cfg listId).idCard = r.idCard := by
  rw [IssueRow.back]
  split <;> rfl

theorem back_back (cfg : Config) (listId : Text) (r : IssueRow) :
    (r.back cfg listId).back cfg listId = r.back cfg listId := by
  by_cases h : listId = cfg.distributionList ∧ r.contractorList ≠ []
  · have hback : r.back cfg listId = (r.listed listId).cleared := if_pos h
    have hcleared : ((r.listed listId).cleared).contractorList = [] := rfl
    rw [hback, IssueRow.back, if_neg fun hn => hn.2 hcleared]
    rfl
  · have hback : r.back cfg listId = r.listed listId := if_neg h
    have hlisted : (r.listed listId).contractorList = r.contractorList := rfl
    rw [hback, IssueRow.back, hlisted, if_neg h]
    rfl

theorem owner_list {c : Contractor} (h : ownerOf contractors listId = some c) :
    c ∈ contractors ∧ c.trelloList = listId :=
  ⟨List.mem_of_find?_eq_some h, by simpa using List.find?_some h⟩

/-- The row that comes out of a visit. -/
theorem synced_eq_some {r s : IssueRow} (h : r.synced cfg contractors listId = some s) :
    ((r.back cfg listId).cardStatus ≠ of "pending" ∧ s = r.back cfg listId) ∨
      (r.back cfg listId).cardStatus = of "pending" ∧ listId ≠ cfg.reworkList ∧
        s = (r.back cfg listId).owned contractors listId := by
  rw [IssueRow.synced] at h
  by_cases hstatus : (r.back cfg listId).cardStatus = of "pending"
  · rw [if_pos hstatus] at h
    by_cases hlist : listId = cfg.reworkList
    · rw [if_pos hlist] at h
      cases h
    · rw [if_neg hlist] at h
      exact .inr ⟨hstatus, hlist, (Option.some.inj h).symm⟩
  · rw [if_neg hstatus] at h
    exact .inl ⟨hstatus, (Option.some.inj h).symm⟩

theorem underway_ne_pending : of "underway" ≠ of "pending" := by decide

/-- What comes out of a visit comes out of the next one unchanged. -/
theorem synced_rests (hfirst : ∀ x ∈ contractors, x.trelloList ≠ cfg.distributionList) {r s : IssueRow}
    (h : r.synced cfg contractors listId = some s) :
    s.idCard = r.idCard ∧ s.back cfg listId = s ∧
      (s.cardStatus = of "pending" → ownerOf contractors listId = none ∧ listId ≠ cfg.reworkList) := by
  rcases synced_eq_some h with ⟨hstatus, rfl⟩ | ⟨hstatus, hlist, rfl⟩
  · exact ⟨back_idCard cfg listId r, back_back cfg listId r, fun hp => absurd hp hstatus⟩
  · rw [IssueRow.owned]
    cases howner : ownerOf contractors listId with
    | none =>
      exact ⟨back_idCard cfg listId r, back_back cfg listId r, fun _ => ⟨rfl, hlist⟩⟩
    | some c =>
      obtain ⟨hmem, hc⟩ := owner_list howner
      have hother : listId ≠ cfg.distributionList := hc ▸ hfirst c hmem
      refine ⟨back_idCard cfg listId r, ?_, fun hp => absurd hp underway_ne_pending⟩
      rw [IssueRow.back, if_neg fun hn => hother hn.1, IssueRow.back, if_neg fun hn => hother hn.1]
      rfl

/-! ### A pass over rows at rest -/

variable {env : PassEnv} {c : Checker}

/-- Nothing has changed, and nobody was written to. -/
structure Unmoved (c d : Checker) : Prop where
  ofCard : ∀ j, d.sh.db.ofCard j = c.sh.db.ofCard j
  seen : d.sh.seen = c.sh.seen
  contractors : d.sh.vContractors = c.sh.vContractors
  toDelete : d.vCardsToDelete = []

/-- The visit to a card with a row at rest. -/
theorem processCard_unmoved {r : IssueRow} {v : CardEnv} (hok : v.Succeeds)
    (hrests : Rests cfg c.sh.vContractors board r) (hanswers : board.Answers r.idCard v.getCard)
    (hr : c.sh.db.ofCard r.idCard = [r]) {d : Checker} (hd : Unmoved c d) :
    wp (processCard cfg r.idCard v) (fun _ d' => Unmoved c d') (fun _ _ => False) d := by
  obtain ⟨card, hboard, hopen, hback, hpending⟩ := hrests
  rw [Board.Answers, hboard] at hanswers
  obtain ⟨read, hread, hclosed, hlist⟩ := hanswers
  rw [← hlist] at hback hpending
  have hsynced : r.synced cfg c.sh.vContractors read.idList = some r := by
    rw [IssueRow.synced, hback]
    split
    next hstatus =>
      obtain ⟨howner, hrework⟩ := hpending hstatus
      rw [if_neg hrework, IssueRow.owned, howner]
    next => rfl
  have hrows : visitRows cfg c.sh.vContractors r.idCard v [r] = [r] := by
    rw [visitRows, hread]
    exact hok.syncedRows.trans (by rw [hsynced]; rfl)
  have hseen : visitSeen cfg c.sh.vContractors r.idCard v [r] = [] := by
    rw [visitSeen, hread]
    apply hok.syncedSeen_quiet
    rw [hback]
    exact hpending
  have hnotClosed : ¬ReportedClosed r.idCard v := by
    rintro ⟨read', hread', hclosed'⟩
    rw [hread, Reply.returns.injEq, Except.ok.injEq] at hread'
    rw [← hread', hclosed, hopen] at hclosed'
    cases hclosed'
  have hnormal : (cardRead r.idCard v.getCard).Normal := by
    rw [hread]
    trivial
  have hother := wp_forall fun j => wp_forall fun hj : j ≠ r.idCard =>
    @processCard_alone cfg _ _ v hj d
  apply wp_mono (wp_and (processCard_rows ((hd.ofCard r.idCard).trans hr)) hother)
  · rintro _ d' ⟨hvisit, halone⟩
    have hvisited := hvisit.rows
    rw [hd.contractors, hrows, hseen] at hvisited
    constructor
    · intro j
      by_cases hj : j = r.idCard
      · rw [hj, hr]
        exact hvisited.ofCard
      · rw [(halone j hj).shared.ofCard, hd.ofCard]
    · exact hvisited.seen.none.trans hd.seen
    · exact hvisited.contractors.trans hd.contractors
    · rw [List.eq_nil_iff_forall_not_mem]
      intro j hj
      rw [hvisit.toDelete, hd.toDelete] at hj
      rcases hj with hj | hj
      · exact List.not_mem_nil hj
      · exact hnotClosed hj.2
  · rintro _ _ ⟨hbroken, -⟩
    exact hbroken.unsafe_ (visitSafe_of_succeeds hok [r] hnormal)

theorem checkTheList_unmoved (hok : env.Succeeds) (hshown : board.Shown env c.sh.db)
    (hnone : c.vCardsToDelete = []) (hdistinct : (c.sh.db.issues.map IssueRow.idCard).Nodup)
    (hrests : ∀ r ∈ c.sh.db.issues, r.idCard ≠ of "1" → Rests cfg c.sh.vContractors board r) :
    wp (checkTheList cfg env) (fun _ c' => c'.sh.db.issues = c.sh.db.issues ∧ c'.sh.seen = c.sh.seen)
      (fun _ _ => False) c := by
  have hloose : wp (checkTheList cfg env)
      (fun _ c' => (∀ j, c'.sh.db.ofCard j = c.sh.db.ofCard j) ∧ c'.sh.seen = c.sh.seen)
      (fun _ _ => False) c := by
    apply wp_checkTheList
    · intro c₁ hbegun _
      have hrow : ∀ x ∈ c₁.vIdCards.zipIdx, ∃ r ∈ c.sh.db.issues, r.idCard = x.1 ∧ x.1 ≠ of "1" ∧
          board.Answers x.1 (env.card x.2).getCard := by
        intro x hx
        rw [hbegun.ids, PassEnv.ids, if_pos hok.selectIds] at hx
        obtain ⟨hk, hrows⟩ := Db.mem_cardIds.mp (List.fst_mem_of_mem_zipIdx hx)
        obtain ⟨r, hr⟩ := List.exists_mem_of_ne_nil _ hrows
        obtain ⟨hr, hrk⟩ := Keyed.mem_rows.mp hr
        exact ⟨r, hr, hrk, hk, hshown x hx⟩
      have hloop : wp (processEveryCard cfg env) (fun _ => Unmoved c) (fun _ _ => False) c₁ := by
        apply wp_processEveryCard
        · intro x hx d hd
          obtain ⟨r, hr, hrk, hk, hanswers⟩ := hrow x hx
          rw [← hrk] at hk hanswers
          have hvisit := @processCard_unmoved cfg _ _ _ _ (hok.card x.2) (hrests r hr hk) hanswers
            (Keyed.rows_of_nodup hdistinct hr) d hd
          rw [hrk] at hvisit
          exact hvisit
        · exact ⟨fun j => (hbegun.idle.spared j).ofCard, hbegun.idle.seen, hbegun.idle.contractors,
            hbegun.toDelete.trans hnone⟩
      rw [wp_bind]
      apply wp_mono hloop
      · intro _ c₂ h₂
        apply wp_mono (wp_forall fun j => @deleteCards_sweeps env j c₂)
        · intro _ c₃ h₃
          have hempty (j : Text) : j ∉ c₂.vCardsToDelete := by
            rw [h₂.toDelete]
            exact List.not_mem_nil
          obtain ⟨es, hs, hes⟩ := (h₃ []).1.unseen
          exact ⟨fun j => (((h₃ j).1.spared (hempty j)).ofCard).trans (h₂.ofCard j),
            (seen_of_unseen hs hes).trans h₂.seen⟩
        · exact fun _ _ h => h []
      · exact fun _ _ h => h
    · exact fun c₁ h _ _ => ⟨fun j => (h.idle.spared j).ofCard, h.idle.seen⟩
    · exact fun _ _ _ hnotice => hnotice fun _ _ => hok.notice
  apply wp_mono (wp_and hloose (checkTheList_thins c))
  · rintro _ c' ⟨⟨hrows, hseen⟩, hthin⟩
    refine ⟨Keyed.eq_of_rows hdistinct ?_ hrows, hseen⟩
    have hkeys := hthin.keys.map Prod.snd
    rw [List.map_map, List.map_map] at hkeys
    exact hkeys
  · exact fun _ _ h => h.1

/-! ### Two passes -/

/-- A card whose row stays was not archived. -/
theorem archived_of_seen {r : IssueRow} {v : CardEnv} {k : Text} (hok : v.Succeeds)
    (hseen : .archivingCard k ∈ visitSeen cfg contractors k v [r]) :
    ∃ read, cardRead k v.getCard = .returns (.ok read) ∧ r.synced cfg contractors read.idList = none := by
  rw [visitSeen] at hseen
  split at hseen
  next read hread =>
    refine ⟨read, hread, ?_⟩
    rw [syncedSeen, hok.checkedStatus, hok.recordedList] at hseen
    rw [IssueRow.synced]
    split at hseen
    next hstatus =>
      rw [if_pos hstatus]
      by_cases hlist : read.idList = cfg.reworkList
      · rw [if_pos hlist]
      · rw [if_neg hlist, List.append_nil] at hseen
        split at hseen
        · rw [assignedSeen, if_pos hok.assign.update] at hseen
          simp at hseen
        · cases hseen
    next => cases hseen
  next => cases hseen

/-- After a pass in which nothing failed, every row is at rest on the board it leaves. -/
theorem rests_after (hfirst : ∀ x ∈ c.sh.vContractors, x.trelloList ≠ cfg.distributionList)
    (hok : env.Succeeds) (hshown : board.Shown env c.sh.db) (hnone : c.vCardsToDelete = [])
    (hdistinct : (c.sh.db.issues.map IssueRow.idCard).Nodup) :
    wp (checkTheList cfg env) (fun _ c' =>
        c'.vCardsToDelete = [] ∧ (c'.sh.db.issues.map IssueRow.idCard).Nodup ∧
        ∀ s ∈ c'.sh.db.issues, s.idCard ≠ of "1" →
          Rests cfg c'.sh.vContractors (board.archived (c'.sh.trace.drop c.sh.trace.length)) s)
      (fun _ _ => False) c := by
  have hrow (r : IssueRow) (hr : r ∈ c.sh.db.issues) : c.sh.db.ofCard r.idCard = [r] :=
    Keyed.rows_of_nodup hdistinct hr
  have hfate := wp_forall fun r => wp_forall fun hr : r ∈ c.sh.db.issues =>
    wp_forall fun hk : r.idCard ≠ of "1" =>
      @checkTheList_fate cfg _ _ _ hok hshown hnone r hk (hrow r hr)
  have hthin := @checkTheList_thins cfg env c
  have hempty := @checkTheList_deletes cfg env _ hnone
  have hcompletes := @checkTheList_completes cfg _ _ _ hok hshown
  apply wp_mono (wp_and (wp_and hfate hcompletes) (wp_and hthin hempty))
  · rintro _ c' ⟨⟨hfate, -⟩, hthin, hempty⟩
    have hkeys := hthin.keys.map Prod.snd
    rw [List.map_map, List.map_map] at hkeys
    refine ⟨hempty, List.Nodup.sublist hkeys hdistinct, ?_⟩
    intro s hs hk
    obtain ⟨r, hr, hrs⟩ := List.mem_map.mp (hkeys.subset (List.mem_map_of_mem hs))
    have hrs : r.idCard = s.idCard := hrs
    obtain ⟨hrows, hpassed, -⟩ := hfate r hr (hrs ▸ hk)
    have hmem : s ∈ c'.sh.db.ofCard r.idCard := Keyed.mem_rows.mpr ⟨hs, hrs.symm⟩
    rw [hrows, Option.mem_toList, Board.fate, Option.bind_eq_some_iff] at hmem
    obtain ⟨card, hboard, hmem⟩ := hmem
    have hopen : card.isClosed = false := by
      cases hc : card.isClosed with
      | false => rfl
      | true =>
        rw [hc, if_pos rfl] at hmem
        cases hmem
    rw [hopen, if_neg Bool.false_ne_true] at hmem
    obtain ⟨hid, hback, hpending⟩ := synced_rests hfirst hmem
    have hanswers := shown_visit (k := r.idCard) hshown (by
      rw [Db.mem_cardIds, hrow r hr]
      exact ⟨hrs ▸ hk, List.cons_ne_nil _ _⟩)
    have hnotArchived : .archivingCard r.idCard ∉ c'.sh.trace.drop c.sh.trace.length := by
      obtain ⟨es, htrace, -, harchived⟩ := hpassed.seen
      rw [htrace, List.drop_left]
      intro hin
      obtain ⟨read, hread, hgone⟩ := archived_of_seen (v := env.visit c.sh.db r.idCard) (hok.card _) (harchived hin)
      rw [Board.Answers, hboard] at hanswers
      obtain ⟨read', hread', -, hlist⟩ := hanswers
      rw [hread, Reply.returns.injEq, Except.ok.injEq] at hread'
      rw [hread', hlist, hmem] at hgone
      cases hgone
    refine ⟨card, ?_, hopen, hback, ?_⟩
    · rw [hid, Board.archived, if_neg hnotArchived]
      exact hboard
    · rw [hpassed.contractors]
      exact hpending
  · exact fun _ _ h => h.1.2

/-- **A second pass over the same board changes no row and writes to no customer, contractor or
member of staff.** The board is the same up to the cards the first pass archived. -/
theorem second_pass_unmoved (hdaemon : Daemon cfg c)
    (hfirst : ∀ x ∈ c.sh.vContractors, x.trelloList ≠ cfg.distributionList)
    (hdistinct : (c.sh.db.issues.map IssueRow.idCard).Nodup) (hok : env.Succeeds)
    (hshown : board.Shown env c.sh.db) :
    ∃ c', (checkTheList cfg env).run c = .ok () c' ∧
      ∀ env' : PassEnv, env'.Succeeds →
        (board.archived (c'.sh.trace.drop c.sh.trace.length)).Shown env' c'.sh.db →
        ∃ c'', (checkTheList cfg env').run c' = .ok () c'' ∧
          c''.sh.db.issues = c'.sh.db.issues ∧ c''.sh.seen = c'.sh.seen := by
  have hrun {env : PassEnv} {c : Checker} {Q : Unit → Checker → Prop}
      (h : wp (checkTheList cfg env) Q (fun _ _ => False) c) :
      ∃ c', (checkTheList cfg env).run c = .ok () c' ∧ Q () c' := by
    rw [wp] at h
    split at h
    next c' hc' => exact ⟨c', hc', h⟩
    next => exact h.elim
  obtain ⟨c', hc', hempty, hdistinct', hrests⟩ :=
    hrun (rests_after hfirst hok hshown hdaemon.nothingToDelete hdistinct)
  refine ⟨c', hc', fun env' hok' hshown' => ?_⟩
  exact hrun (checkTheList_unmoved hok' hshown' hempty hdistinct' hrests)

/-- A card in the column of a contractor, over two passes. -/
theorem second_pass_unmoved_owned :
    ∃ c', (checkTheList {} (.over (fun _ => some ⟨false, of "ivan"⟩)
        {issues := [{idCard := of "c", cardStatus := of "pending"}]})).run
        { sh :=
          { vContractors := [⟨7, of "Иван", of "ivan7", of "ivan"⟩]
            db := {issues := [{idCard := of "c", cardStatus := of "pending"}]} } } = .ok () c' ∧
      ∃ c'', (checkTheList {} (.over (Board.archived (fun _ => some ⟨false, of "ivan"⟩) c'.sh.trace)
          c'.sh.db)).run c' = .ok () c'' ∧
        c''.sh.db.issues = c'.sh.db.issues ∧ c''.sh.seen = c'.sh.seen := by
  obtain ⟨c', hc', hsecond⟩ := @second_pass_unmoved {} (fun _ => some ⟨false, of "ivan"⟩) _ _
    (.start
      { vContractors := [⟨7, of "Иван", of "ivan7", of "ivan"⟩]
        db := {issues := [{idCard := of "c", cardStatus := of "pending"}]} })
    (by decide) (by decide) (PassEnv.over_succeeds _ _) (Board.shown_over _ _)
  exact ⟨c', hc', hsecond _ (PassEnv.over_succeeds _ _) (Board.shown_over _ _)⟩

end

end Chanserv
