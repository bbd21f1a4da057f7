import Chanserv.Checker.Removal

/-! Cards that are closed on the board.

A closed card goes on the list of those to be deleted after the loop, and is then
visited like any other: the column is recorded, a card that was handed back loses
its contractor, a pending one is assigned or sent back. -/
namespace Chanserv
open Text Program

/-! ### The visits of a pass -/

/-- A visit: the state it begins in, its card, and the place of the card in the list. -/
structure PassVisit where
  before : Checker
  cardId : Text
  index : Nat

section
variable (cfg : Config) (env : PassEnv)

def PassVisit.after (v : PassVisit) : Checker := final (processCard cfg v.cardId (env.card v.index)) v.before

/-- The visits of the loop, up to one that throws. -/
def visitsOf : List (Text × Nat) → Checker → List PassVisit
  | [], _ => []
  | (cardId, i) :: cards, d => ⟨d, cardId, i⟩ ::
    match (processCard cfg cardId (env.card i)).run d with
    | .ok _ d' => visitsOf cards d'
    | .error _ _ => []

def passVisits (c : Checker) : List PassVisit :=
  match (checksBootstrap cfg env).run c with
  | .ok true d => visitsOf cfg env d.vIdCards.zipIdx d
  | _ => []

/-- Trello reports the card as closed, at one of the visits of the pass. -/
def ClosedInPass (c : Checker) (cardId : Text) : Prop :=
  ∃ v ∈ passVisits cfg env c, v.cardId = cardId ∧ ReportedClosed cardId (env.card v.index)

/-- Nothing is announced, and no contractor is put into a row of the card. -/
structure PassVisit.Spares (v : PassVisit) : Prop where
  unannounced : (v.after cfg env).sh.seen = v.before.sh.seen
  unassigned : ∀ s ∈ (v.after cfg env).sh.db.ofCard v.cardId, ∃ r ∈ v.before.sh.db.ofCard v.cardId,
    r.keys = s.keys ∧ (s.contractorId = r.contractorId ∨ s.contractorId = [])

/-- The rows of the card are as they were, or gone. -/
def PassVisit.OnlyRemoves (v : PassVisit) : Prop :=
  (v.after cfg env).sh.db.ofCard v.cardId = v.before.sh.db.ofCard v.cardId ∨
    (v.after cfg env).sh.db.ofCard v.cardId = []

end

/-! ### What a visit does to a closed card -/

section
variable (cfg : Config) (contractors : List Contractor) (env : CardEnv) (listId : Text)
  (rows : List IssueRow)

/-- The row is pending, and the card is in the column of a contractor or in that for tasks to be
written anew. -/
def TakenUp : Prop :=
  checkedStatus cfg env listId rows = of "pending" ∧
    ((∃ c, ownerOf contractors listId = some c ∧ env.assign.update = true) ∨
      recordedList env listId rows = cfg.reworkList)

/-- The column is the recorded one, and the card was not handed back, as far as the statements
succeed. -/
def Untouched : Prop :=
  (env.updateList = true → ∀ r ∈ rows, r.idCardList = listId) ∧
    ¬(HandedBack cfg env listId rows ∧ env.clear = true)

variable {cfg contractors env listId rows}

theorem map_listed_eq_self_iff : rows.map (IssueRow.listed listId) = rows ↔ ∀ r ∈ rows, r.idCardList = listId := by
  have hmap := List.map_inj_left (f := IssueRow.listed listId) (g := id) (l := rows)
  rw [List.map_id] at hmap
  rw [hmap]
  constructor
  · exact fun h r hr => (congrArg IssueRow.idCardList (h r hr)).symm
  · intro h r hr
    rw [IssueRow.listed, ← h r hr, id]

/-- A row read has no contractor where none has. -/
theorem column_contractor {ok : Bool} (h : ∀ r ∈ rows, r.contractorList = []) :
    column (readRow ok rows) IssueRow.contractorList = [] := by
  unfold column readRow
  split
  · cases rows with
    | nil => rfl
    | cons r rest => exact h r (List.mem_cons_self ..)
  · rfl

/-- What is done short of taking the card up leaves the rows alone when there is nothing to record. -/
theorem clearedRows_eq_iff : clearedRows cfg env listId rows = rows ↔ Untouched cfg env listId rows := by
  have hlisted : listedRows env listId rows = rows ↔ (env.updateList = true → ∀ r ∈ rows, r.idCardList = listId) := by
    unfold listedRows
    by_cases hupdate : env.updateList = true
    · rw [if_pos hupdate, map_listed_eq_self_iff]
      exact ⟨fun h _ => h, fun h => h hupdate⟩
    · rw [if_neg hupdate]
      exact ⟨fun _ h => absurd h hupdate, fun _ => rfl⟩
  unfold Untouched
  by_cases hback : HandedBack cfg env listId rows ∧ env.clear = true
  · refine ⟨fun h => ?_, fun h => absurd hback h.2⟩
    -- The row read has a contractor, and all rows are without one once they are cleared.
    have hnone : ∀ r ∈ rows, r.contractorList = [] := by
      intro r hr
      rw [← h, clearedRows, if_pos hback] at hr
      obtain ⟨r₀, -, rfl⟩ := List.mem_map.mp hr
      rfl
    have hnone' : ∀ r ∈ listedRows env listId rows, r.contractorList = [] := by
      intro r hr
      unfold listedRows at hr
      split at hr
      · obtain ⟨r₀, hr₀, rfl⟩ := List.mem_map.mp hr
        exact hnone r₀ hr₀
      · exact hnone r hr
    exact absurd (column_contractor hnone') hback.1.2
  · rw [clearedRows, if_neg hback, hlisted]
    exact (and_iff_left hback).symm

end

/-! ### Somebody is told -/

/-- A message or an archiving is new. -/
def Told (s s' : Shared) : Prop := s.seen.length < s'.seen.length

section
variable {α β : Type} {cfg : Config} {k listId : Text} {s s' t : Shared}

theorem Thinned.seen (h : Thinned s s') : s.seen.length ≤ s'.seen.length := by
  obtain ⟨es, hes⟩ := h.trace
  rw [seen_append hes.symm, List.length_append]
  exact Nat.le_add_right ..

/-- What was told stays told. -/
theorem Told.within {m : ServiceM α} (h : Told s s') (hm : Within Thinned m) :
    wp m (fun _ => Told s) (fun _ => Told s) s' :=
  wp_mono (hm s') (fun _ _ ht => Nat.lt_of_lt_of_le h ht.seen) fun _ _ ht => Nat.lt_of_lt_of_le h ht.seen

/-- A program that starts with a message. -/
theorem told_call {e : Effect} {r : Answer α} {f : α → ServiceM β} (hs : s'.seen = s.seen) (he : e.isSeen = true)
    (hf : ∀ a, Within Thinned (f a)) : wp (call e r >>= f) (fun _ => Told s) (fun _ => Told s) s' := by
  have hlog : Told s (s'.log e) := by
    rw [Told, Shared.seen_log, if_pos he, hs, List.length_append]
    exact Nat.lt_add_one _
  rw [wp_bind, wp_call]
  exact ⟨fun a _ => hlog.within (hf a), fun _ _ => hlog⟩

theorem assignContractorToCard_told (c : Contractor) {env : AssignEnv} (hupdate : env.update = true)
    (hs : s'.seen = s.seen) : wp (assignContractorToCard k c env) (fun _ => Told s) (fun _ => Told s) s' := by
  rw [assignContractorToCard, wp_bind, wp_sql_returns, wp_guarded]
  refine ⟨fun _ => ?_, fun hno => absurd hupdate hno⟩
  rw [wp_bind, wp_call_returns, wp_bind, wp_selectOfCard]
  refine told_call ?_ rfl fun _ => ((Thinned.admits (fun _ => True) k).quiet rfl).bind fun _ => .done _
  rw [Shared.seen_other rfl, Shared.seen_other rfl, Shared.seen_mk]
  exact (Shared.seen_other rfl _).trans hs

theorem reworkCardAndNotify_told {env : ReworkEnv} (hs : s'.seen = s.seen) :
    wp (reworkCardAndNotify cfg k env) (fun _ => Told s) (fun _ => Told s) s' := by
  have hadmits : Admits (fun _ => True) Thinned k := Thinned.admits _ k
  rw [reworkCardAndNotify, wp_bind, wp_selectOfCard]
  refine told_call ((Shared.seen_other rfl _).trans hs) rfl fun _ => ?_
  exact hadmits.besideNotice

/-- A card that is taken up is told of, whatever fails afterwards. -/
theorem syncNManage_told {env : CardEnv} {rows : List IssueRow} (hrows : s'.db.ofCard k = listedRows env listId rows)
    (hs : s'.seen = s.seen) (htaken : TakenUp cfg s'.vContractors env listId rows) :
    wp (syncNManageContractorsAndCards cfg k listId env) (fun _ => Told s) (fun _ => Told s) s' := by
  have hadmits : Admits (fun _ => True) Thinned k := Thinned.admits _ k
  rw [syncNManageContractorsAndCards, wp_bind]
  refine wp_mono (syncDistributedCard_rows hrows) (fun recorded s₁ h₁ => ?_) fun _ _ h => h
  obtain ⟨rfl, hcleared, hseen, hcontractors⟩ := h₁
  rw [wp_bind, wp_selectOfCard, hcleared, wp_guarded]
  refine ⟨fun _ => ?_, fun hno => absurd htaken.1 hno⟩
  have hsame : (s₁.log .selectRows).seen = s.seen := (Shared.seen_other rfl s₁).trans (hseen.none.trans hs)
  have hrest : Within Thinned (guarded (recordedList env listId rows = cfg.reworkList)
      (reworkCardAndNotify cfg k env.rework)) := .guarded fun _ => hadmits.reworkCardAndNotify
  have hrework {t : Shared} (ht : t.seen = s.seen) (hlist : recordedList env listId rows = cfg.reworkList) :
      wp (guarded (recordedList env listId rows = cfg.reworkList) (reworkCardAndNotify cfg k env.rework))
        (fun _ => Told s) (fun _ => Told s) t :=
    (wp_guarded _).mpr ⟨fun _ => reworkCardAndNotify_told ht, fun hno => absurd hlist hno⟩
  rw [wp_bind, wp_get, wp_bind]
  have howners : (s₁.log .selectRows).vContractors = s'.vContractors := hcontractors
  rw [howners]
  cases howner : ownerOf s'.vContractors listId with
  | none =>
    rcases htaken.2 with ⟨c, hc, -⟩ | hlist
    · rw [howner] at hc
      cases hc
    · exact hrework hsame hlist
  | some c =>
    by_cases hupdate : env.assign.update = true
    · exact wp_mono (assignContractorToCard_told c hupdate hsame) (fun _ _ h => h.within hrest) fun _ _ h => h
    · have hlist : recordedList env listId rows = cfg.reworkList := by
        rcases htaken.2 with ⟨_, _, h⟩ | hlist
        · exact absurd h hupdate
        · exact hlist
      rw [Option.elim_some, assignContractorToCard, wp_bind, wp_sql_returns, wp_guarded]
      refine ⟨fun h => absurd h hupdate, fun _ => hrework ?_ hlist⟩
      exact (Shared.seen_other rfl _).trans hsame

end

/-! ### Closed cards in a visit -/

section
variable {cfg : Config} {k listId : Text} {env : CardEnv} {c : Checker} {card : JiraCard}

/-- A card that is taken up is told of. -/
theorem processCard_told (hread : cardRead k env.getCard = .returns (.ok card))
    (htaken : TakenUp cfg c.sh.vContractors env card.idList (c.sh.db.ofCard k)) :
    wp (processCard cfg k env) (fun _ c' => Told c.sh c'.sh) (fun _ c' => Told c.sh c'.sh) c := by
  have hsync : wp (do
        let _ ← sql (.updateIssue k) (.returns env.updateList) fun db => db.updateIssues k (IssueRow.listed card.idList)
        syncNManageContractorsAndCards cfg k card.idList env)
      (fun _ => Told c.sh) (fun _ => Told c.sh) (c.sh.log (.getCard k)) := by
    rw [wp_bind, wp_sql_returns]
    refine syncNManage_told ?_ ?_ htaken
    · show (if env.updateList then c.sh.db.updateIssues k (IssueRow.listed card.idList) else c.sh.db).ofCard k = _
      rw [listedRows]
      split
      · exact Db.ofCard_updateIssues (listed_keys _) _ _
      · rfl
    · rw [Shared.seen_mk]
      exact (Shared.seen_other rfl _).trans (Shared.seen_other rfl _)
  have hcommit : Within Thinned (call .commit (.returns env.commit)) :=
    ((Thinned.admits (fun _ => True) k).quiet rfl)
  rw [processCard, getCard_eq, hread, wp_bind, wp_serviceChecker, wp_call_returns, wp_bind, answerCard,
    cardRead_id hread, wp_bind, wp_guarded]
  have hanswered (vCardsToDelete : List Text) :
      wp (serviceChecker do
          let _ ← sql (.updateIssue k) (.returns env.updateList) fun db => db.updateIssues k (IssueRow.listed card.idList)
          syncNManageContractorsAndCards cfg k card.idList env)
        (fun _ c' => wp (do let _ ← serviceChecker (call .commit (.returns env.commit)))
          (fun _ c' => Told c.sh c'.sh) (fun _ c' => Told c.sh c'.sh) c')
        (fun _ c' => Told c.sh c'.sh) {c with vCardsToDelete, sh := c.sh.log (.getCard k)} := by
    rw [wp_serviceChecker]
    refine wp_mono hsync (fun _ s' h => ?_) fun _ _ h => h
    rw [wp_bind, wp_serviceChecker]
    exact h.within hcommit
  exact ⟨fun _ => hanswered _, fun _ => hanswered _⟩

/-- What is left alone of a card that is not taken up. -/
theorem processCard_quiet (hread : cardRead k env.getCard = .returns (.ok card))
    (hleft : ¬TakenUp cfg c.sh.vContractors env card.idList (c.sh.db.ofCard k)) :
    wp (processCard cfg k env)
      (fun _ c' => c'.sh.seen = c.sh.seen ∧ c'.sh.db.ofCard k = clearedRows cfg env card.idList (c.sh.db.ofCard k))
      (fun _ _ => False) c := by
  have hpending (h : checkedStatus cfg env card.idList (c.sh.db.ofCard k) = of "pending") :
      (∀ x, ownerOf c.sh.vContractors card.idList = some x → ¬env.assign.update = true) ∧
        recordedList env card.idList (c.sh.db.ofCard k) ≠ cfg.reworkList :=
    ⟨fun x hx hupdate => hleft ⟨h, .inl ⟨x, hx, hupdate⟩⟩, fun hlist => hleft ⟨h, .inr hlist⟩⟩
  refine wp_mono (processCard_rows rfl) (fun _ c' hvisit => ?_) fun _ _ hbroken => ?_
  · have hseen := hvisit.rows.seen
    rw [visitSeen, hread] at hseen
    dsimp only at hseen
    rw [hvisit.rows.ofCard, visitRows, hread]
    dsimp only
    rw [syncedSeen] at hseen
    rw [syncedRows]
    by_cases hstatus : checkedStatus cfg env card.idList (c.sh.db.ofCard k) = of "pending"
    · obtain ⟨howner, hlist⟩ := hpending hstatus
      rw [if_pos hstatus, if_neg hlist, List.append_nil] at hseen
      rw [if_pos hstatus, if_neg hlist, ownedRows]
      cases hfound : ownerOf c.sh.vContractors card.idList with
      | none =>
        rw [hfound] at hseen
        exact ⟨hseen.none, rfl⟩
      | some x =>
        rw [hfound] at hseen
        dsimp only at hseen ⊢
        rw [assignedSeen, if_neg (howner x hfound)] at hseen
        rw [assignedRows, if_neg (howner x hfound)]
        exact ⟨hseen.none, rfl⟩
    · rw [if_neg hstatus] at hseen
      rw [if_neg hstatus]
      exact ⟨hseen.none, rfl⟩
  · refine hbroken.unsafe_ ?_
    rw [VisitSafe, hread]
    intro hstatus
    obtain ⟨howner, hlist⟩ := hpending hstatus
    exact ⟨fun x hx hupdate => absurd hupdate (howner x hx), fun h => absurd h hlist⟩

/-- Without a card nothing is seen, and the rows are left or removed. -/
theorem processCard_unread (hread : ∀ card, cardRead k env.getCard ≠ .returns (.ok card)) :
    wp (processCard cfg k env)
      (fun _ c' => c'.sh.seen = c.sh.seen ∧ (c'.sh.db.ofCard k = c.sh.db.ofCard k ∨ c'.sh.db.ofCard k = []))
      (fun _ c' => c'.sh.seen = c.sh.seen ∧ (c'.sh.db.ofCard k = c.sh.db.ofCard k ∨ c'.sh.db.ofCard k = [])) c := by
  have hseen : (c.sh.log (.getCard k)).seen = c.sh.seen := Shared.seen_other rfl _
  rw [processCard, getCard_eq, wp_bind, wp_serviceChecker, wp_call]
  refine ⟨fun answer hanswer => ?_, fun _ _ => ⟨hseen, .inl rfl⟩⟩
  rw [wp_bind]
  cases answer with
  | ok card => exact absurd hanswer (hread card)
  | error code =>
    cases code with
    | notFound404 =>
      rw [answerCard, wp_serviceChecker, wp_bind, deleteIssueFromDb, wp_sql_returns, wp_pure, wp_bind,
        wp_serviceChecker, wp_call_returns]
      refine ⟨(Shared.seen_other rfl _).trans ((Shared.seen_other rfl _).trans hseen), ?_⟩
      show (if env.deleteMissing then c.sh.db.deleteIssue k else c.sh.db).ofCard k = _ ∨
        (if env.deleteMissing then c.sh.db.deleteIssue k else c.sh.db).ofCard k = []
      split
      · exact .inr (Db.ofCard_deleteIssue _ _)
      · exact .inl rfl
    | _ => exact ⟨(Shared.seen_other rfl _).trans hseen, .inl rfl⟩

theorem mem_clearedRows_contractor {rows : List IssueRow} {r : IssueRow} (hr : r ∈ clearedRows cfg env listId rows) :
    ∃ r₀ ∈ rows, r₀.keys = r.keys ∧ (r.contractorId = r₀.contractorId ∨ r.contractorId = []) := by
  have hlisted {r : IssueRow} (hr : r ∈ listedRows env listId rows) :
      ∃ r₀ ∈ rows, r₀.keys = r.keys ∧ r.contractorId = r₀.contractorId := by
    unfold listedRows at hr
    split at hr
    · obtain ⟨r₀, hr₀, rfl⟩ := List.mem_map.mp hr
      exact ⟨r₀, hr₀, rfl, rfl⟩
    · exact ⟨r, hr, rfl, rfl⟩
  unfold clearedRows at hr
  split at hr
  · obtain ⟨r₁, hr₁, rfl⟩ := List.mem_map.mp hr
    obtain ⟨r₀, hr₀, hkeys, -⟩ := hlisted hr₁
    exact ⟨r₀, hr₀, hkeys, .inr rfl⟩
  · obtain ⟨r₀, hr₀, hkeys, hid⟩ := hlisted hr
    exact ⟨r₀, hr₀, hkeys, .inl hid⟩

end

/-! ### Closed cards in a pass -/

namespace PassVisit
variable {cfg : Config} {env : PassEnv} {v : PassVisit}

/-- The card of the visit, if Trello has one, is not taken up. -/
def NotTakenUp (cfg : Config) (env : PassEnv) (v : PassVisit) : Prop :=
  ∀ card, cardRead v.cardId (env.card v.index).getCard = .returns (.ok card) →
    ¬TakenUp cfg v.before.sh.vContractors (env.card v.index) card.idList (v.before.sh.db.ofCard v.cardId)

/-- Nor is there anything to be written to its rows. -/
def Unwritten (cfg : Config) (env : PassEnv) (v : PassVisit) : Prop :=
  ∀ card, cardRead v.cardId (env.card v.index).getCard = .returns (.ok card) →
    Untouched cfg (env.card v.index) card.idList (v.before.sh.db.ofCard v.cardId)

theorem told {card : JiraCard} (hread : cardRead v.cardId (env.card v.index).getCard = .returns (.ok card))
    (htaken : TakenUp cfg v.before.sh.vContractors (env.card v.index) card.idList (v.before.sh.db.ofCard v.cardId)) :
    (v.after cfg env).sh.seen ≠ v.before.sh.seen := by
  have htold : Told v.before.sh (v.after cfg env).sh :=
    of_wp (P := fun _ (d' : Checker) => Told v.before.sh d'.sh) (processCard_told hread htaken)
  exact fun h => absurd (congrArg List.length h).symm (Nat.ne_of_lt htold)

theorem quiet {card : JiraCard} (hread : cardRead v.cardId (env.card v.index).getCard = .returns (.ok card))
    (hleft : ¬TakenUp cfg v.before.sh.vContractors (env.card v.index) card.idList (v.before.sh.db.ofCard v.cardId)) :
    (v.after cfg env).sh.seen = v.before.sh.seen ∧ (v.after cfg env).sh.db.ofCard v.cardId =
      clearedRows cfg (env.card v.index) card.idList (v.before.sh.db.ofCard v.cardId) :=
  of_wp (P := fun _ (d' : Checker) => d'.sh.seen = v.before.sh.seen ∧ d'.sh.db.ofCard v.cardId =
    clearedRows cfg (env.card v.index) card.idList (v.before.sh.db.ofCard v.cardId))
    (wp_mono (processCard_quiet hread hleft) (fun _ _ h => h) fun _ _ h => h.elim)

theorem unread (hread : ∀ card, cardRead v.cardId (env.card v.index).getCard ≠ .returns (.ok card)) :
    (v.after cfg env).sh.seen = v.before.sh.seen ∧ v.OnlyRemoves cfg env :=
  of_wp (P := fun _ (d' : Checker) => d'.sh.seen = v.before.sh.seen ∧ (d'.sh.db.ofCard v.cardId = v.before.sh.db.ofCard v.cardId ∨
    d'.sh.db.ofCard v.cardId = [])) (processCard_unread hread)

theorem spares_iff : v.Spares cfg env ↔ v.NotTakenUp cfg env := by
  constructor
  · exact fun h card hread htaken => told hread htaken h.unannounced
  · intro h
    by_cases hread : ∃ card, cardRead v.cardId (env.card v.index).getCard = .returns (.ok card)
    · obtain ⟨card, hread⟩ := hread
      obtain ⟨hseen, hrows⟩ := quiet hread (h card hread)
      refine ⟨hseen, fun r hr => ?_⟩
      rw [hrows] at hr
      exact mem_clearedRows_contractor hr
    · obtain ⟨hseen, hrows⟩ := unread fun card hcard => hread ⟨card, hcard⟩
      refine ⟨hseen, fun r hr => ?_⟩
      rcases hrows with hsame | hgone
      · rw [hsame] at hr
        exact ⟨r, hr, rfl, .inl rfl⟩
      · rw [hgone] at hr
        cases hr

theorem onlyRemoves_iff (h : v.NotTakenUp cfg env) : v.OnlyRemoves cfg env ↔ v.Unwritten cfg env := by
  by_cases hread : ∃ card, cardRead v.cardId (env.card v.index).getCard = .returns (.ok card)
  · obtain ⟨card, hread⟩ := hread
    obtain ⟨-, hrows⟩ := quiet hread (h card hread)
    have hunwritten : v.Unwritten cfg env ↔
        Untouched cfg (env.card v.index) card.idList (v.before.sh.db.ofCard v.cardId) := by
      constructor
      · exact fun h => h card hread
      · intro h card' hread'
        obtain rfl : card = card' := by
          rw [hread, Reply.returns.injEq, Except.ok.injEq] at hread'
          exact hread'
        exact h
    rw [hunwritten, ← clearedRows_eq_iff, OnlyRemoves, hrows]
    refine ⟨fun h => h.elim id fun hnil => ?_, .inl⟩
    have hkeys := @clearedRows_keys cfg (env.card v.index) card.idList (v.before.sh.db.ofCard v.cardId)
    rw [hnil] at hkeys ⊢
    exact (List.map_eq_nil_iff.mp hkeys.symm).symm
  · have hno : ∀ card, cardRead v.cardId (env.card v.index).getCard ≠ .returns (.ok card) :=
      fun card hcard => hread ⟨card, hcard⟩
    exact ⟨fun _ card hcard => absurd hcard (hno card), fun _ => (unread hno).2⟩

end PassVisit

section
variable {cfg : Config} {env : PassEnv} {c : Checker}

/-- The closed cards of the visits are on the list. -/
theorem forEach_collects (cards : List (Text × Nat)) (d : Checker) :
    wp (forEach cards fun (cardId, i) => processCard cfg cardId (env.card i))
      (fun _ d' => d.vCardsToDelete ⊆ d'.vCardsToDelete ∧
        ∀ v ∈ visitsOf cfg env cards d, ReportedClosed v.cardId (env.card v.index) → v.cardId ∈ d'.vCardsToDelete)
      (fun _ _ => True) d := by
  induction cards generalizing d with
  | nil => exact ⟨List.Subset.refl _, fun _ hv => absurd hv List.not_mem_nil⟩
  | cons x cards ih =>
    obtain ⟨k, i⟩ := x
    rw [forEach, wp_bind]
    refine wp_mono (wp_run (processCard_rows (c := d) rfl)) (fun _ d₁ h => ?_) fun _ _ _ => trivial
    obtain ⟨hrun, hvisit⟩ := h
    refine wp_mono (ih d₁) (fun _ d' h' => ?_) fun _ _ _ => trivial
    refine ⟨fun j hj => h'.1 ((hvisit.toDelete j).mpr (.inl hj)), ?_⟩
    rw [visitsOf, hrun]
    refine List.forall_mem_cons.mpr ⟨fun hclosed => ?_, h'.2⟩
    exact h'.1 ((hvisit.toDelete k).mpr (.inr ⟨rfl, hclosed⟩))

/-- A pass that completes, and whose DELETEs succeed, leaves no row of a card that was closed. -/
theorem checkTheList_removes :
    wp (checkTheList cfg env)
      (fun _ c' => (∀ i, env.deleteClosed i = true) → ∀ k, ClosedInPass cfg env c k → c'.sh.db.ofCard k = [])
      (fun _ _ => True) c := by
  rw [checkTheList, wp_bind]
  refine wp_mono (wp_run checksBootstrap_begins) (fun some_ c₁ h => ?_) fun _ _ _ => trivial
  obtain ⟨hrun, -⟩ := h
  rw [wp_guarded]
  constructor
  · rintro rfl
    have hvisits : passVisits cfg env c = visitsOf cfg env c₁.vIdCards.zipIdx c₁ := by rw [passVisits, hrun]
    rw [wp_bind, processEveryCard, wp_bind, wp_get]
    refine wp_mono (forEach_collects c₁.vIdCards.zipIdx c₁) (fun _ c₂ h₂ => ?_) fun _ _ h => h
    refine wp_mono (wp_forall fun k => @deleteCards_sweeps env k c₂) (fun _ c₃ h₃ hall k hclosed => ?_) fun _ _ _ => trivial
    obtain ⟨v, hv, rfl, hreported⟩ := hclosed
    rw [hvisits] at hv
    exact (h₃ v.cardId).1.deleted (h₂.2 v hv hreported) hall
  · intro hnone _ k hclosed
    obtain ⟨v, hv, -⟩ := hclosed
    have hvisits : passVisits cfg env c = [] := by
      rw [passVisits, hrun]
      cases some_ with
      | true => exact absurd rfl hnone
      | false => rfl
    rw [hvisits] at hv
    cases hv

/-- In every pass: closed cards are neither assigned nor announced exactly when none of them is found
pending in a column that counts; and their rows are only removed exactly when besides there was nothing
to be written to them. They are removed if the pass completes and the statements succeed. -/
theorem closed_only_removed_iff (cfg : Config) (env : PassEnv) (c : Checker) :
    ((∀ v ∈ passVisits cfg env c, ClosedInPass cfg env c v.cardId → v.Spares cfg env) ↔
      ∀ v ∈ passVisits cfg env c, ClosedInPass cfg env c v.cardId → v.NotTakenUp cfg env) ∧
    ((∀ v ∈ passVisits cfg env c, ClosedInPass cfg env c v.cardId → v.Spares cfg env ∧ v.OnlyRemoves cfg env) ↔
      ∀ v ∈ passVisits cfg env c, ClosedInPass cfg env c v.cardId → v.NotTakenUp cfg env ∧ v.Unwritten cfg env) ∧
    ∀ c', (checkTheList cfg env).run c = .ok () c' → (∀ i, env.deleteClosed i = true) →
      ∀ k, ClosedInPass cfg env c k → c'.sh.db.ofCard k = [] := by
  refine ⟨?_, ?_, fun c' hrun => of_run checkTheList_removes hrun⟩
  · exact forall₃_congr fun _ _ _ => PassVisit.spares_iff
  · refine forall₃_congr fun v _ _ => ?_
    rw [PassVisit.spares_iff]
    exact and_congr_right PassVisit.onlyRemoves_iff

end

/-! ### A closed card that is assigned -/

/-- A pending row, and a contractor whose column its card was in when it was archived. -/
def archivedPending : Checker where
  sh :=
    { db := {issues := [{idCard := of "c1", idCardList := of "l3", cardStatus := of "pending", consumerId := of "5"}]}
      vContractors := [⟨3, of "Petr", of "petr", of "l3"⟩] }

def archivedBoard : PassEnv := .calm fun _ =>
  .returns (.answered 200 (some (.object [(of "closed", .bool true), (of "idList", .string (of "l3"))])))

/-- The one visit of the pass. -/
def archivedVisit : PassVisit where
  before := {archivedPending with vIdCards := [of "c1"], sh := archivedPending.sh.log .selectRows}
  cardId := of "c1"
  index := 0

theorem archivedVisit_mem : archivedVisit ∈ passVisits {} archivedBoard archivedPending := by
  have hbegun : (checksBootstrap {} archivedBoard).run archivedPending = .ok true archivedVisit.before := rfl
  rw [passVisits, hbegun]
  exact List.mem_cons_self ..

/-- Customer and contractor are told of a new task, and the row is deleted at the end of the pass. -/
theorem closed_announced : ¬∀ (cfg : Config) (env : PassEnv) (c : Checker), ∀ v ∈ passVisits cfg env c,
    ClosedInPass cfg env c v.cardId → v.Spares cfg env ∧ v.OnlyRemoves cfg env := by
  intro h
  have hclosed : ReportedClosed archivedVisit.cardId (archivedBoard.card archivedVisit.index) :=
    ⟨⟨of "c1", true, of "l3", []⟩, rfl, rfl⟩
  have hspares := (h {} archivedBoard archivedPending archivedVisit archivedVisit_mem
    ⟨archivedVisit, archivedVisit_mem, rfl, hclosed⟩).1
  exact absurd hspares.unannounced (by decide +kernel)

end Chanserv
