import Chanserv.Bot.Threads
import Chanserv.Checker.Rows
import Chanserv.TrelloAnswers

/-! Rows that are deleted, and cards that are archived.

A task is closed on the board and in the table, by its contractor or by the checker.
Both archive the card first, drop the code and delete the row. -/
namespace Chanserv
open Text Program

/-- The rows of a card that was not archived are as they were. -/
def ClosedTogether (reply : CurlReply) (idCard : Text) (s s' : Shared) : Prop :=
  archivingCode reply ≠ 0 → s'.db.ofCard idCard = s.db.ofCard idCard

section
variable {cfg : Config}

/-- Where a sending of the notice ends the process, card and DELETE were seen to before it. -/
def DeleteReached (cfg : Config) (r : Nat → Sending) (ahead : Nat → Nat) : Prop :=
  ∀ i, FailsAt cfg r i → 2 ≤ made ahead i

theorem StaffSpared.deleteReached {r : Nat → Sending} {ahead : Nat → Nat} (h : StaffSpared cfg r) :
    DeleteReached cfg r ahead := fun _ hfails => absurd h hfails.not_spared

/-- The process ends there. -/
theorem FailsAt.deleteReached_iff {r : Nat → Sending} {ahead : Nat → Nat} {i : Nat} (h : FailsAt cfg r i) :
    DeleteReached cfg r ahead ↔ 2 ≤ made ahead i := by
  refine ⟨fun hreached => hreached i h, fun hmade j hj => ?_⟩
  rw [hj.unique h]
  exact hmade

/-- A closing that comes to the DELETE: it succeeds, and there is a row. -/
structure ClosingDeletes (cfg : Config) (env : CallbackEnv) (idCard : Text) (c : Chat) : Prop where
  clicked : c.ud.clickedMsgId ≠ 0
  editMarkup : env.editMarkup.Normal
  alert : env.alert.Normal
  reached : DeleteReached cfg env.staff env.ahead
  delete : env.deleteIssue = .returns true
  row : c.sh.db.ofCard idCard ≠ []

/-- The same for a card to be reworked. -/
structure ReworkDeletes (cfg : Config) (env : ReworkEnv) (idCard : Text) (s : Shared) : Prop where
  customer : (env.customer (customerOf env.selectCustomer (s.db.ofCard idCard))).Normal
  reached : DeleteReached cfg env.staff env.ahead
  delete : env.delete = true
  row : s.db.ofCard idCard ≠ []

/-- Rows that were there are deleted, or they are left. -/
theorem deleted_or_left {D M : Prop} {rows left : List IssueRow} (hD : D ↔ M ∧ rows ≠ []) (hgone : M → left = [])
    (hleft : ¬M → left = rows) : D ∧ left = [] ∨ ¬D ∧ left = rows := by
  by_cases hm : M
  · by_cases hrows : rows = []
    · exact .inr ⟨fun hd => (hD.mp hd).2 hrows, (hgone hm).trans hrows.symm⟩
    · exact .inl ⟨hD.mpr ⟨hm, hrows⟩, hgone hm⟩
  · exact .inr ⟨fun hd => hm (hD.mp hd).1, hleft hm⟩

/-- A closing beside its notice, of which `k` statements are made. -/
theorem closing_beside (reply : CurlReply) (env : CallbackEnv) (idCard : Text) (text : Text) (s : Shared) :
    wp (besideThread env.ahead (noticesToStaff cfg text .goDashboard env.staff)
      [ archivingCard idCard (codeDropped reply),
        do let _ ← deleteIssueFromDb idCard env.deleteIssue ])
      (fun _ t => StaffSpared cfg env.staff ∧
        t.db.ofCard idCard = if env.deleteIssue = .returns true then [] else s.db.ofCard idCard)
      (fun _ t => (env.deleteIssue ≠ .returns true ∧ t.db.ofCard idCard = s.db.ofCard idCard) ∨
        ∃ i, FailsAt cfg env.staff i ∧ t.db.ofCard idCard =
          if 2 ≤ made env.ahead i ∧ env.deleteIssue = .returns true then [] else s.db.ofCard idCard) s := by
  refine wp_mono (wp_besideNotice
    (I := fun _ k t => t.db.ofCard idCard =
      if 2 ≤ k ∧ env.deleteIssue = .returns true then [] else s.db.ofCard idCard)
    (J := fun _ t => env.deleteIssue ≠ .returns true ∧ t.db.ofCard idCard = s.db.ofCard idCard)
    (fun _ _ _ _ _ h => h) ?_ (fun _ _ _ _ h => h) ?_) ?_ ?_
  · intro k m hm i t h
    match k, hm with
    | 0, hm =>
      cases hm
      rw [archivingCard, wp_call]
      exact ⟨fun _ _ => h, fun _ hthrows => by cases hthrows⟩
    | 1, hm =>
      cases hm
      have hrows : t.db.ofCard idCard = s.db.ofCard idCard := by rw [h, if_neg (by omega)]
      rw [wp_bind, deleteIssueFromDb, wp_sql]
      refine ⟨fun hdelete => ?_, fun hdelete => ?_, fun x hdelete => ⟨rfl, ?_, hrows⟩⟩
      · show (t.db.deleteIssue idCard).ofCard idCard = _
        rw [if_pos ⟨Nat.le_refl 2, hdelete⟩]
        exact Db.ofCard_deleteIssue _ _
      · show t.db.ofCard idCard = _
        rw [hdelete, if_neg (fun hn => by cases hn.2)]
        exact hrows
      · rw [hdelete]
        exact fun hn => by cases hn
    | _ + 2, hm => cases hm
  · show s.db.ofCard idCard = _
    rw [if_neg (by omega)]
  · rintro _ t ⟨hstaff, h⟩
    refine ⟨hstaff, h.trans ?_⟩
    exact if_congr ⟨And.right, fun hdelete => ⟨Nat.le_refl 2, hdelete⟩⟩ rfl rfl
  · rintro stop t (⟨-, h⟩ | ⟨-, -, _, h⟩ | ⟨-, i, hfails, h⟩)
    · exact .inl h
    · exact .inl h
    · refine .inr ⟨i, hfails, h.trans ?_⟩
      have hmin : 2 ≤ min 2 (made env.ahead i) ↔ 2 ≤ made env.ahead i := by omega
      exact if_congr (and_congr_left fun _ => hmin) rfl rfl

/-- The rows are gone where the closing comes to the DELETE, and are left where it does not. -/
theorem onTaskClosing_rows (reply : CurlReply) (env : CallbackEnv) (query : CallbackQuery) (issue : PgdbIssue) (c : Chat) :
    wp (onTaskClosing cfg {env with archive := codeDropped reply} query issue)
      (fun _ d => ClosingDeletes cfg env issue.idCard c ∧ d.sh.db.ofCard issue.idCard = [] ∨
        ¬ClosingDeletes cfg env issue.idCard c ∧ d.sh.db.ofCard issue.idCard = c.sh.db.ofCard issue.idCard)
      (fun _ d => ClosingDeletes cfg env issue.idCard c ∧ d.sh.db.ofCard issue.idCard = [] ∨
        ¬ClosingDeletes cfg env issue.idCard c ∧ d.sh.db.ofCard issue.idCard = c.sh.db.ofCard issue.idCard) c := by
  have hkept {d : Shared} (hno : ¬ClosingDeletes cfg env issue.idCard c)
      (hrows : d.db.ofCard issue.idCard = c.sh.db.ofCard issue.idCard) :
      ClosingDeletes cfg env issue.idCard c ∧ d.db.ofCard issue.idCard = [] ∨
        ¬ClosingDeletes cfg env issue.idCard c ∧ d.db.ofCard issue.idCard = c.sh.db.ofCard issue.idCard :=
    .inr ⟨hno, hrows⟩
  rw [onTaskClosing, wp_bind, wp_get, wp_guarded]
  refine ⟨fun hclicked => ?_, fun hold => hkept (fun h => hold h.clicked) rfl⟩
  rw [wp_bind, wp_service, wp_call]
  refine ⟨fun _ hedit => ?_, fun x hedit => hkept (fun h => h.editMarkup.not_throws hedit) rfl⟩
  rw [wp_bind, wp_modifySession, wp_bind, wp_service, wp_call]
  refine ⟨fun _ halert => ?_, fun x halert => hkept (fun h => h.alert.not_throws halert) rfl⟩
  have hdeletes : ClosingDeletes cfg env issue.idCard c ↔
      (DeleteReached cfg env.staff env.ahead ∧ env.deleteIssue = .returns true) ∧ c.sh.db.ofCard issue.idCard ≠ [] := by
    have hedit : env.editMarkup.Normal := by rw [show env.editMarkup = _ from hedit]; trivial
    have halert : env.alert.Normal := by rw [show env.alert = _ from halert]; trivial
    exact ⟨fun h => ⟨⟨h.reached, h.delete⟩, h.row⟩, fun h => ⟨hclicked, hedit, halert, h.1.1, h.1.2, h.2⟩⟩
  rw [wp_service]
  refine wp_mono (closing_beside reply env issue.idCard _ _) ?_ ?_
  · rintro _ t ⟨hstaff, hrows⟩
    refine deleted_or_left hdeletes (fun hm => ?_) fun hm => ?_
    · exact hrows.trans (if_pos hm.2)
    · exact hrows.trans (if_neg fun hdelete => hm ⟨hstaff.deleteReached, hdelete⟩)
  · rintro _ t (⟨hdelete, hrows⟩ | ⟨i, hfails, hrows⟩)
    · exact hkept (fun h => hdelete h.delete) hrows
    · refine deleted_or_left hdeletes (fun hm => ?_) fun hm => ?_
      · exact hrows.trans (if_pos ⟨hfails.deleteReached_iff.mp hm.1, hm.2⟩)
      · exact hrows.trans (if_neg fun hd => hm ⟨hfails.deleteReached_iff.mpr hd.1, hd.2⟩)

theorem reworkCardAndNotify_deletes (reply : CurlReply) (env : ReworkEnv) (idCard : Text) (s : Shared) :
    wp (reworkCardAndNotify cfg idCard {env with archive := codeDropped reply})
      (fun _ s' => ReworkDeletes cfg env idCard s ∧ s'.db.ofCard idCard = [] ∨
        ¬ReworkDeletes cfg env idCard s ∧ s'.db.ofCard idCard = s.db.ofCard idCard)
      (fun _ s' => ReworkDeletes cfg env idCard s ∧ s'.db.ofCard idCard = [] ∨
        ¬ReworkDeletes cfg env idCard s ∧ s'.db.ofCard idCard = s.db.ofCard idCard) s := by
  have hdeletes (hcustomer : (env.customer (customerOf env.selectCustomer (s.db.ofCard idCard))).Normal)
      (hreached : DeleteReached cfg env.staff env.ahead) :
      ReworkDeletes cfg env idCard s ↔ env.delete = true ∧ s.db.ofCard idCard ≠ [] :=
    ⟨fun h => ⟨h.delete, h.row⟩, fun h => ⟨hcustomer, hreached, h.1, h.2⟩⟩
  refine wp_mono (reworkCardAndNotify_rows rfl _) (fun _ s' h => ?_) fun _ s' h => ?_
  · obtain ⟨⟨hcustomer, hstaff, -⟩, hvisited⟩ := h
    exact deleted_or_left (hdeletes hcustomer (StaffSpared.deleteReached hstaff))
      (fun hdelete => hvisited.ofCard.trans (if_pos hdelete)) fun hdelete => hvisited.ofCard.trans (if_neg hdelete)
  · obtain ⟨hbad, hbroken⟩ := h
    rcases hbroken.ofCard with ⟨⟨hcustomer, -, i, hfails, hmade⟩, hrows⟩ | ⟨hlate, hrows⟩
    · exact deleted_or_left (hdeletes hcustomer ((FailsAt.deleteReached_iff hfails).mpr hmade))
        (fun hdelete => hrows.trans (if_pos hdelete)) fun hdelete => hrows.trans (if_neg hdelete)
    · refine .inr ⟨fun h => ?_, hrows⟩
      obtain ⟨i, hfails⟩ := exists_failsAt fun hstaff => hbad ⟨h.customer, hstaff, trivial⟩
      exact hlate ⟨h.customer, trivial, i, hfails, h.reached i hfails⟩

/-- What a program deletes or leaves, by the answer of Trello. -/
theorem closedTogether_iff {σ : Type} {m : EStateM Stop σ Unit} (sh : σ → Shared) {s : σ} {reply : CurlReply}
    {idCard : Text} {D : Prop} (hrow : D → (sh s).db.ofCard idCard ≠ [])
    (h : wp m (fun _ s' => D ∧ (sh s').db.ofCard idCard = [] ∨ ¬D ∧ (sh s').db.ofCard idCard = (sh s).db.ofCard idCard)
      (fun _ s' => D ∧ (sh s').db.ofCard idCard = [] ∨ ¬D ∧ (sh s').db.ofCard idCard = (sh s).db.ofCard idCard) s) :
    ClosedTogether reply idCard (sh s) (sh (final m s)) ↔ archivingCode reply = 0 ∨ ¬D := by
  have hafter := of_wp (P := fun _ s' => D ∧ (sh s').db.ofCard idCard = [] ∨
    ¬D ∧ (sh s').db.ofCard idCard = (sh s).db.ofCard idCard) h
  unfold ClosedTogether
  rcases hafter with ⟨hd, hgone⟩ | ⟨hd, hsame⟩
  · rw [hgone]
    constructor
    · exact fun htogether => .inl (by_contra fun hcode => hrow hd (htogether hcode).symm)
    · rintro (hcode | hno) hfailed
      · exact absurd hcode hfailed
      · exact absurd hd hno
  · exact ⟨fun _ => .inr hd, fun _ _ => hsame⟩

/-- Row and card are closed together when the card is archived, or the row is not deleted after all. -/
theorem closed_together_iff (cfg : Config) (reply : CurlReply) :
    (∀ (env : CallbackEnv) (query : CallbackQuery) (issue : PgdbIssue) (c : Chat),
      ClosedTogether reply issue.idCard c.sh
          (final (onTaskClosing cfg {env with archive := codeDropped reply} query issue) c).sh ↔
        archivingCode reply = 0 ∨ ¬ClosingDeletes cfg env issue.idCard c) ∧
    ∀ (env : ReworkEnv) (idCard : Text) (s : Shared),
      ClosedTogether reply idCard s (final (reworkCardAndNotify cfg idCard {env with archive := codeDropped reply}) s) ↔
        archivingCode reply = 0 ∨ ¬ReworkDeletes cfg env idCard s := by
  constructor
  · intro env query issue c
    exact closedTogether_iff Chat.sh ClosingDeletes.row (onTaskClosing_rows reply env query issue c)
  · intro env idCard s
    exact closedTogether_iff (fun s => s) ReworkDeletes.row (reworkCardAndNotify_deletes reply env idCard s)

end

/-- A contractor about to close the task of card c1, and the click. -/
def closing : Chat :=
  { ud := {chatUserTgId := 3, chatUserTgName := [], chatUserFirstName := [], clickedMsgId := 10}
    sh := {db := {issues := [{idCard := of "c1", contractorId := of "3"}]}} }

def closingClick : CallbackQuery := ⟨[], ⟨3, [], []⟩, 10, ⟨3, []⟩, of "task_closing"⟩

/-- Trello cannot be reached: the card stays on the board, its row is gone. -/
theorem row_without_card : ¬∀ (cfg : Config) (reply : CurlReply) (env : CallbackEnv) (query : CallbackQuery)
    (issue : PgdbIssue) (c : Chat),
    ClosedTogether reply issue.idCard c.sh
      (final (onTaskClosing cfg {env with archive := codeDropped reply} query issue) c).sh := by
  intro h
  have hrows := h {} .failed (UpdateEnv.calm 0).callback closingClick {idCard := of "c1"} closing
    (by decide)
  exact absurd hrows (by decide +kernel)

end Chanserv
