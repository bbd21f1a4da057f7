import Chanserv.Checker.Removal

/-! A pass over a board, when nothing fails.

The board says of each card whether it is still there, whether it is closed, and
in which column it stands. A card with one row and a call for everything comes
down to one function: `synced` says what becomes of the row. -/
namespace Chanserv
open Text Program

/-! ### The board -/

structure BoardCard where
  isClosed : Bool
  idList : Text
deriving DecidableEq, Repr

/-- The cards on the board; `none` for one that was deleted. -/
abbrev Board := Text → Option BoardCard

/-- The board after the archiving among the effects of a pass. -/
def Board.archived (board : Board) (effects : List Effect) : Board := fun k =>
  if .archivingCard k ∈ effects then (board k).map fun card => {card with isClosed := true} else board k

/-- A request for a card, answered as the board stands. -/
def Board.Answers (board : Board) (k : Text) (r : Answer CurlReply) : Prop :=
  match board k with
  | none => cardRead k r = .returns (.error .notFound404)
  | some card => ∃ read, cardRead k r = .returns (.ok read) ∧
      read.isClosed = card.isClosed ∧ read.idList = card.idList

/-- All requests of a pass are answered as the board stands. -/
def Board.Shown (board : Board) (env : PassEnv) (db : Db) : Prop :=
  ∀ x ∈ db.cardIds.zipIdx, board.Answers x.1 (env.card x.2).getCard

/-- What Trello sends for a card that is there. -/
def BoardCard.document (card : BoardCard) : Json.Value :=
  .object [(of "closed", .bool card.isClosed), (of "idList", .string card.idList)]

/-- The answer of the board about a card. -/
def Board.reply (board : Board) (k : Text) : CurlReply :=
  match board k with
  | none => .answered 404 none
  | some card => .answered 200 (some card.document)

theorem Board.answers_reply (board : Board) (k : Text) : board.Answers k (.returns (board.reply k)) := by
  rw [Board.Answers, Board.reply]
  cases board k with
  | none => rfl
  | some card => exact ⟨⟨k, card.isClosed, card.idList, []⟩, rfl, rfl, rfl⟩

/-- A pass over a board in which nothing fails. -/
def PassEnv.over (board : Board) (db : Db) : PassEnv :=
  .calm fun i => .returns (board.reply (db.cardIds.getD i []))

theorem Board.shown_over (board : Board) (db : Db) : board.Shown (.over board db) db := by
  intro x hx
  have hk : db.cardIds.getD x.2 [] = x.1 := by
    rw [List.getD_eq_getElem?_getD, List.mk_mem_zipIdx_iff_getElem?.mp hx, Option.getD_some]
  show board.Answers x.1 (.returns (board.reply (db.cardIds.getD x.2 [])))
  rw [hk]
  exact board.answers_reply x.1

/-! ### Calls that succeed -/

structure AssignEnv.Succeeds (env : AssignEnv) : Prop where
  update : env.update = true
  selectConsumer : env.selectConsumer = true
  customer : ∀ x, (env.customer x).Normal
  contractor : ∀ x, (env.contractor x).Normal

structure ReworkEnv.Succeeds (env : ReworkEnv) : Prop where
  selectCustomer : env.selectCustomer = true
  customer : ∀ x, (env.customer x).Normal
  staff : ∀ i, (env.staff i).Normal
  archive : env.archive.Normal
  delete : env.delete = true

structure CardEnv.Succeeds (env : CardEnv) : Prop where
  updateList : env.updateList = true
  selectLists : env.selectLists = true
  clear : env.clear = true
  selectStatus : env.selectStatus = true
  assign : env.assign.Succeeds
  rework : env.rework.Succeeds
  deleteMissing : env.deleteMissing = true

structure PassEnv.Succeeds (env : PassEnv) : Prop where
  selectIds : env.selectIds = true
  notice : env.notice.Normal
  card : ∀ i, (env.card i).Succeeds
  deleteClosed : ∀ i, env.deleteClosed i = true

theorem CardEnv.calm_succeeds (r : Answer CurlReply) : (CardEnv.calm r).Succeeds :=
  ⟨rfl, rfl, rfl, rfl, ⟨rfl, rfl, fun _ => trivial, fun _ => trivial⟩,
    ⟨rfl, fun _ => trivial, fun _ => trivial, trivial, rfl⟩, rfl⟩

theorem PassEnv.over_succeeds (board : Board) (db : Db) : (PassEnv.over board db).Succeeds :=
  ⟨rfl, trivial, fun _ => CardEnv.calm_succeeds _, fun _ => rfl⟩

/-! ### What becomes of a row -/

section
variable (cfg : Config) (contractors : List Contractor) (listId : Text)

/-- With its column recorded, and without its contractor if it was handed back. -/
def IssueRow.back (r : IssueRow) : IssueRow :=
  if listId = cfg.distributionList ∧ r.contractorList ≠ [] then (r.listed listId).cleared
  else r.listed listId

/-- With the contractor of its column, if there is one. -/
def IssueRow.owned (r : IssueRow) : IssueRow :=
  match ownerOf contractors listId with
  | some c => r.assigned c
  | none => r

/-- The row after a pass over a board where its card is open in a column. -/
def IssueRow.synced (r : IssueRow) : Option IssueRow :=
  if (r.back cfg listId).cardStatus = of "pending" then
    if listId = cfg.reworkList then none else some ((r.back cfg listId).owned contractors listId)
  else some (r.back cfg listId)

end

section
variable {cfg : Config} {contractors : List Contractor} {env : CardEnv} {listId k : Text} {r : IssueRow}

theorem CardEnv.Succeeds.listedRows (h : env.Succeeds) : listedRows env listId [r] = [r.listed listId] := by
  rw [Chanserv.listedRows, if_pos h.updateList]
  rfl

theorem CardEnv.Succeeds.recordedList (h : env.Succeeds) : recordedList env listId [r] = listId := by
  rw [Chanserv.recordedList, h.listedRows, readRow, if_pos h.selectLists]
  rfl

theorem CardEnv.Succeeds.clearedRows (h : env.Succeeds) :
    clearedRows cfg env listId [r] = [r.back cfg listId] := by
  have hback : HandedBack cfg env listId [r] ↔ listId = cfg.distributionList ∧ r.contractorList ≠ [] := by
    rw [HandedBack, h.recordedList, h.listedRows, readRow, if_pos h.selectLists]
    exact Iff.rfl
  rw [Chanserv.clearedRows, h.listedRows, IssueRow.back]
  by_cases hb : listId = cfg.distributionList ∧ r.contractorList ≠ []
  · rw [if_pos ⟨hback.mpr hb, h.clear⟩, if_pos hb]
    rfl
  · rw [if_neg fun hn => hb (hback.mp hn.1), if_neg hb]

theorem CardEnv.Succeeds.checkedStatus (h : env.Succeeds) :
    checkedStatus cfg env listId [r] = (r.back cfg listId).cardStatus := by
  rw [Chanserv.checkedStatus, h.clearedRows, readRow, if_pos h.selectStatus]
  rfl

theorem CardEnv.Succeeds.ownedRows (h : env.Succeeds) :
    ownedRows cfg contractors env listId [r] = [(r.back cfg listId).owned contractors listId] := by
  rw [Chanserv.ownedRows, h.clearedRows, IssueRow.owned]
  cases ownerOf contractors listId with
  | none => rfl
  | some c =>
    dsimp only
    rw [assignedRows, if_pos h.assign.update]
    rfl

theorem CardEnv.Succeeds.syncedRows (h : env.Succeeds) :
    syncedRows cfg contractors env listId [r] = (r.synced cfg contractors listId).toList := by
  rw [Chanserv.syncedRows, IssueRow.synced, h.checkedStatus, h.recordedList, h.ownedRows, h.clearedRows,
    reworkedRows, if_pos h.rework.delete]
  split
  · split <;> rfl
  · rfl

/-- Nobody hears of a visit to a row that is not pending. -/
theorem CardEnv.Succeeds.syncedSeen_quiet (h : env.Succeeds)
    (hquiet : (r.back cfg listId).cardStatus = of "pending" →
      ownerOf contractors listId = none ∧ listId ≠ cfg.reworkList) :
    syncedSeen cfg contractors env listId [r] k = [] := by
  rw [syncedSeen, h.checkedStatus, h.recordedList]
  split
  next hstatus =>
    obtain ⟨howner, hlist⟩ := hquiet hstatus
    rw [howner, if_neg hlist]
    rfl
  next => rfl

theorem visitSafe_of_succeeds (h : env.Succeeds) (rows : List IssueRow)
    (hread : (cardRead k env.getCard).Normal) : VisitSafe cfg contractors k env rows := by
  rw [VisitSafe]
  split
  next card _ =>
    intro _
    constructor
    · intro c _ _
      exact ⟨h.assign.customer _, h.assign.contractor _⟩
    · intro _
      refine ⟨h.rework.customer _, fun i _ => (h.rework.staff i).not_throws, h.rework.archive⟩
  next => trivial
  next hthrows =>
    rw [hthrows] at hread
    exact hread

end

/-! ### The pass -/

theorem Board.Answers.normal {board : Board} {k : Text} {a : Answer CurlReply} (h : board.Answers k a) :
    (cardRead k a).Normal := by
  rw [Board.Answers] at h
  split at h
  · rw [h]
    trivial
  · obtain ⟨read, hread, -⟩ := h
    rw [hread]
    trivial

section
variable {cfg : Config} {env : PassEnv} {board : Board} {c : Checker}

/-- A pass in which nothing fails runs to its end. -/
theorem checkTheList_completes (hok : env.Succeeds) (hshown : board.Shown env c.sh.db) :
    wp (checkTheList cfg env) (fun _ _ => True) (fun _ _ => False) c := by
  apply wp_checkTheList
  · intro c₁ hbegun _
    have hnormal : ∀ x ∈ c₁.vIdCards.zipIdx, (cardRead x.1 (env.card x.2).getCard).Normal := by
      intro x hx
      rw [hbegun.ids, PassEnv.ids, if_pos hok.selectIds] at hx
      exact (hshown x hx).normal
    have hloop : wp (processEveryCard cfg env) (fun _ _ => True) (fun _ _ => False) c₁ := by
      apply wp_processEveryCard (I := fun _ => True)
      · intro x hx d _
        apply wp_mono (@processCard_rows cfg x.1 (env.card x.2) _ d rfl)
        · exact fun _ _ _ => trivial
        · exact fun _ _ h => h.unsafe_ (visitSafe_of_succeeds (hok.card x.2) _ (hnormal x hx))
      · trivial
    rw [wp_bind]
    apply wp_mono hloop
    · intro _ c₂ _
      exact wp_mono (deleteCards_sweeps [] c₂) (fun _ _ _ => trivial) fun _ _ h => h
    · exact fun _ _ h => h
  · exact fun _ _ _ _ => trivial
  · exact fun _ _ _ hnotice => hnotice fun _ _ => hok.notice

/-- What becomes of a row with its card on the board: a row whose card is gone or closed goes too. -/
def Board.fate (board : Board) (cfg : Config) (contractors : List Contractor) (r : IssueRow) : Option IssueRow :=
  (board r.idCard).bind fun card =>
    if card.isClosed then none else r.synced cfg contractors card.idList

theorem shown_visit (hshown : board.Shown env c.sh.db) {k : Text} (hk : k ∈ c.sh.db.cardIds) :
    board.Answers k (env.visit c.sh.db k).getCard := by
  have hlt := List.idxOf_lt_length_of_mem hk
  have hmem : (k, c.sh.db.cardIds.idxOf k) ∈ c.sh.db.cardIds.zipIdx := by
    rw [List.mk_mem_zipIdx_iff_getElem?, List.getElem?_eq_getElem hlt, List.getElem_idxOf hlt]
  exact hshown _ hmem

/-- **What a pass in which nothing fails makes of a row** that is alone with its card. -/
theorem checkTheList_fate (hok : env.Succeeds) (hshown : board.Shown env c.sh.db)
    (hnone : c.vCardsToDelete = []) {r : IssueRow} (hk : r.idCard ≠ of "1")
    (hr : c.sh.db.ofCard r.idCard = [r]) :
    wp (checkTheList cfg env)
      (fun _ c' => c'.sh.db.ofCard r.idCard = (board.fate cfg c.sh.vContractors r).toList ∧
        Passed cfg env r.idCard r c c' ∧ c'.vCardsToDelete = []) (fun _ _ => False) c := by
  have hmem : r.idCard ∈ c.sh.db.cardIds := by
    rw [Db.mem_cardIds, hr]
    exact ⟨hk, List.cons_ne_nil _ _⟩
  have hanswers := shown_visit hshown hmem
  have hcard : (env.visit c.sh.db r.idCard).Succeeds := hok.card _
  have hpass := wp_and (@checkTheList_rows cfg _ _ _ _ hk hok.selectIds hnone hr)
    (@checkTheList_completes cfg _ _ _ hok hshown)
  refine wp_mono hpass (fun _ c' h => ?_) fun _ _ h => h.2
  obtain ⟨⟨hpassed, hempty⟩, -⟩ := h
  refine ⟨?_, hpassed, hempty⟩
  rw [Board.fate]
  rw [Board.Answers] at hanswers
  cases hboard : board r.idCard with
  | none =>
    rw [hboard] at hanswers
    have hopen : ¬ReportedClosed r.idCard (env.visit c.sh.db r.idCard) := by
      rintro ⟨card, hread, -⟩
      rw [hanswers] at hread
      cases hread
    rw [hpassed.kept hopen, visitRows, hanswers]
    dsimp only
    rw [if_pos hcard.deleteMissing]
    rfl
  | some card =>
    rw [hboard] at hanswers
    obtain ⟨read, hread, hclosed, hlist⟩ := hanswers
    rw [Option.bind_some, ← hclosed, ← hlist]
    cases hc : read.isClosed with
    | true =>
      rw [if_pos rfl]
      exact hpassed.deleted ⟨read, hread, hc⟩ hok.deleteClosed
    | false =>
      have hopen : ¬ReportedClosed r.idCard (env.visit c.sh.db r.idCard) := by
        rintro ⟨card', hread', hclosed'⟩
        rw [hread, Reply.returns.injEq, Except.ok.injEq] at hread'
        rw [← hread', hc] at hclosed'
        cases hclosed'
      rw [if_neg Bool.false_ne_true, hpassed.kept hopen, visitRows, hread]
      exact hcard.syncedRows

end

end Chanserv
