import Chanserv.Checker.Rows

/-! From the visit to one card to a whole pass.

A visit touches no rows but those of its card (`Spares`), and where the cards of
the table are distinct every card is visited once. So what a pass makes of the
rows of a card is what that one visit makes of them, and the deletion of the
closed cards at the end (`checkTheList_rows`). -/
namespace Chanserv
open Text Program

/-! ### The rows of other cards -/

/-- The card an effect is about, if it names one. -/
def Effect.card : Effect → Option Text
  | .updateIssue k | .deleteIssue k | .getCard k | .archivingCard k => some k
  | .addImgToCard k _ | .changeCardColor k _ => some k
  | _ => none

/-- What an UPDATE of the checker makes of a row; it assigns certain contractors only. -/
inductive Updating (P : Contractor → Prop) : (IssueRow → IssueRow) → Prop
  | assigned {c : Contractor} : P c → Updating P (IssueRow.assigned c)
  | cleared : Updating P IssueRow.cleared
  | listed (listId : Text) : Updating P (IssueRow.listed listId)

theorem Updating.keys {P : Contractor → Prop} {f : IssueRow → IssueRow} (h : Updating P f) (r : IssueRow) :
    (f r).keys = r.keys := by
  cases h <;> rfl

/-- A relation between states that allows what a visit to a card does, as long as the contractor it
assigns is one of certain ones. -/
structure Admits (P : Contractor → Prop) (R : Shared → Shared → Prop) (id : Text) : Prop where
  log : ∀ (s : Shared) {e : Effect}, (∀ k, e.card = some k → k = id) → R s (s.log e)
  update : ∀ (s : Shared) {f : IssueRow → IssueRow}, Updating P f →
    R s {s with db := s.db.updateIssues id f}
  delete : ∀ s : Shared, R s {s with db := s.db.deleteIssue id}

namespace Admits
variable {α : Type} {P : Contractor → Prop} {R : Shared → Shared → Prop} [Std.Refl R] [IsTrans Shared R]
  {cfg : Config} {id : Text}

theorem call (h : Admits P R id) {e : Effect} {r : Answer α} (he : ∀ k, e.card = some k → k = id) :
    Within R (call e r) := by
  apply Within.bind (.writes fun s => h.log s he)
  intro _
  cases r with
  | returns a => exact .done a
  | throws x => exact .fails

theorem quiet (h : Admits P R id) {e : Effect} {r : Answer α} (he : e.card = none) :
    Within R (Chanserv.call e r) := by
  apply h.call
  intro k hk
  rw [he] at hk
  cases hk

theorem about (h : Admits P R id) {e : Effect} {r : Answer α} (he : e.card = some id) :
    Within R (Chanserv.call e r) := by
  apply h.call
  intro k hk
  rw [he] at hk
  exact (Option.some.inj hk).symm

theorem updates (h : Admits P R id) {r : Answer Bool} {f : IssueRow → IssueRow}
    (hf : Updating P f) :
    Within R (sql (.updateIssue id) r fun db => db.updateIssues id f) := by
  apply (h.about rfl).bind
  intro _
  refine Within.bind (.guarded fun _ => ?_) fun _ => .done _
  exact Within.writes fun s => h.update s hf

theorem deletes (h : Admits P R id) {r : Answer Bool} : Within R (deleteIssueFromDb id r) := by
  apply (h.about rfl).bind
  intro _
  refine Within.bind (.guarded fun _ => ?_) fun _ => .done _
  exact Within.writes h.delete

theorem selectOfCard (h : Admits P R id) {ok : Bool} : Within R (selectOfCard id ok) := by
  apply Within.bind
  · exact (h.quiet rfl).bind fun _ => Within.reads.bind fun _ => .done _
  · exact fun _ => .done _

theorem inThread {m : ServiceM α} (h : Within R m) : Within R (inThread m) :=
  Within.handling h fun stop => by cases stop <;> exact .fails

theorem noticesToStaff (h : Admits P R id) {text : Text} {kb : Keyboard} {r : Nat → Sending} :
    ∀ t ∈ noticesToStaff cfg text kb r, Within R t := by
  intro t ht
  obtain ⟨x, -, rfl⟩ := List.mem_map.mp ht
  refine Within.handling ((h.quiet rfl).bind fun _ => .done _) fun stop => ?_
  cases stop with
  | throws e =>
    cases e with
    | tgException => exact .done _
    | stdException => exact .fails
  | _ => exact .fails

theorem assignContractorToCard (h : Admits P R id) {c : Contractor} (hc : P c) {env : AssignEnv} :
    Within R (assignContractorToCard id c env) := by
  refine (h.updates (.assigned hc)).bind fun _ => .guarded fun _ => ?_
  refine (h.quiet rfl).bind fun _ => h.selectOfCard.bind fun _ => (h.quiet rfl).bind fun _ => ?_
  exact (h.quiet rfl).bind fun _ => .done _

/-- What a rework does once the customer is told. -/
theorem besideNotice (h : Admits P R id) {text : Text} {env : ReworkEnv} :
    Within R (besideThread env.ahead (Chanserv.noticesToStaff cfg text .none env.staff)
      [ archivingCard id env.archive,
        do let _ ← deleteIssueFromDb id (.returns env.delete),
        do let _ ← Chanserv.call .commit (.returns env.commit) ]) := by
  refine Within.beside (fun t ht => inThread (h.noticesToStaff t ht)) fun m hm => ?_
  rcases List.mem_cons.mp hm with rfl | hm
  · exact h.about rfl
  rcases List.mem_cons.mp hm with rfl | hm
  · exact h.deletes.bind fun _ => .done _
  · rw [List.mem_singleton.mp hm]
    exact (h.quiet rfl).bind fun _ => .done _

theorem reworkCardAndNotify (h : Admits P R id) {env : ReworkEnv} : Within R (reworkCardAndNotify cfg id env) :=
  h.selectOfCard.bind fun _ => (h.quiet rfl).bind fun _ => h.besideNotice

theorem syncDistributedCard (h : Admits P R id) {env : CardEnv} :
    Within R (syncDistributedCard cfg id env) := by
  refine h.selectOfCard.bind fun _ => Within.bind (.guarded fun _ => ?_) fun _ => .done _
  exact (h.updates .cleared).bind fun _ => .done _

theorem syncNManage (h : Admits P R id) {listId : Text} (hP : ∀ c, c.trelloList = listId → P c)
    {env : CardEnv} : Within R (syncNManageContractorsAndCards cfg id listId env) := by
  refine h.syncDistributedCard.bind fun _ => h.selectOfCard.bind fun _ => .guarded fun _ => ?_
  refine Within.reads.bind fun s => Within.bind ?_ fun _ => .guarded fun _ => h.reworkCardAndNotify
  cases howner : ownerOf s.vContractors listId with
  | none => exact .done _
  | some c => exact h.assignContractorToCard (hP c (by simpa using List.find?_some howner))

end Admits

/-- The rows of a card and the contractors are as they were, and nothing was done about the card. -/
structure Spared (k : Text) (s s' : Shared) : Prop where
  ofCard : s'.db.ofCard k = s.db.ofCard k
  contractors : s'.vContractors = s.vContractors
  quiet : ∃ es, s'.trace = s.trace ++ es ∧ ∀ e ∈ es, e.card ≠ some k

instance (k : Text) : Std.Refl (Spared k) :=
  ⟨fun _ => ⟨rfl, rfl, [], (List.append_nil _).symm, fun _ h => absurd h List.not_mem_nil⟩⟩

instance (k : Text) : IsTrans Shared (Spared k) where
  trans _ _ _ h h' := by
    obtain ⟨es, hs, hes⟩ := h.quiet
    obtain ⟨es', hs', hes'⟩ := h'.quiet
    refine ⟨h'.ofCard.trans h.ofCard, h'.contractors.trans h.contractors, es ++ es', ?_, ?_⟩
    · rw [hs', hs, List.append_assoc]
    · intro e he
      rcases List.mem_append.mp he with he | he
      · exact hes e he
      · exact hes' e he

/-- A visit to a card spares every other one. -/
theorem Spared.admits {P : Contractor → Prop} {k id : Text} (hk : k ≠ id) : Admits P (Spared k) id where
  log s {e} he := by
    refine ⟨rfl, rfl, [e], rfl, ?_⟩
    intro e' he'
    rw [List.mem_singleton.mp he']
    exact fun hcard => hk (he k hcard)
  update s _ hf := ⟨Db.ofCard_updateIssues_ne hf.keys hk s.db, rfl, (Std.Refl.refl (r := Spared k) s).quiet⟩
  delete s := ⟨Db.ofCard_deleteIssue_ne hk s.db, rfl, (Std.Refl.refl (r := Spared k) s).quiet⟩

theorem wp_serviceChecker {α : Type} {m : ServiceM α} {Q : α → Checker → Prop}
    {E : Stop → Checker → Prop} {c : Checker} :
    wp (serviceChecker m) Q E c ↔
      wp m (fun a sh => Q a {c with sh}) (fun e sh => E e {c with sh}) c.sh :=
  wp_zoom

/-- A card is left alone: also, nothing is decided about its deletion. -/
structure LeftAlone (k : Text) (c c' : Checker) : Prop where
  shared : Spared k c.sh c'.sh
  toDelete : k ∈ c'.vCardsToDelete ↔ k ∈ c.vCardsToDelete

instance (k : Text) : Std.Refl (LeftAlone k) := ⟨fun _ => ⟨Std.Refl.refl _, Iff.rfl⟩⟩

instance (k : Text) : IsTrans Checker (LeftAlone k) :=
  ⟨fun _ _ _ h h' => ⟨IsTrans.trans _ _ _ h.shared h'.shared, h'.toDelete.trans h.toDelete⟩⟩

section
variable {P : Contractor → Prop} {R : Shared → Shared → Prop} [Std.Refl R] [IsTrans Shared R]
  {R' : Checker → Checker → Prop} [Std.Refl R'] [IsTrans Checker R'] {cfg : Config} {k id : Text}

/-- A visit stays within what allows its statements, its requests and the note that the card is closed. -/
theorem Admits.processCard (h : Admits P R id) (hsh : ∀ (c : Checker) s, R c.sh s → R' c {c with sh := s})
    (hclosed : ∀ c, R' c {c with vCardsToDelete := c.vCardsToDelete ++ [id]}) {env : CardEnv}
    (hP : ∀ card c, cardRead id env.getCard = .returns (.ok card) → c.trelloList = card.idList → P c) :
    Within R' (processCard cfg id env) := by
  have hshared {α : Type} {m : ServiceM α} (hm : Within R m) : Within R' (serviceChecker m) :=
    hm.zoom hsh
  have hanswer {answer : Except TrelloError JiraCard} (hread : cardRead id env.getCard = .returns answer) :
      Within R' (answerCard cfg id env answer) := by
    cases answer with
    | ok card =>
      refine Within.bind (.guarded fun _ => .writes hclosed) fun _ => hshared ?_
      rw [cardRead_id hread]
      exact (h.updates (.listed card.idList)).bind fun _ => h.syncNManage fun c => hP card c hread
    | error code =>
      cases code with
      | notFound404 => exact hshared (h.deletes.bind fun _ => .done _)
      | _ => exact .done _
  intro c
  have hasked : R' c {c with sh := c.sh.log (.getCard id)} :=
    hsh c _ (h.log c.sh fun _ hj => (Option.some.inj hj).symm)
  rw [Chanserv.processCard, getCard_eq, wp_bind, wp_serviceChecker, wp_call]
  constructor
  · intro answer hread
    have hcommit : Within R' (serviceChecker (Chanserv.call .commit (.returns env.commit))) :=
      hshared (h.quiet rfl)
    have hrest := (hanswer hread).bind fun _ =>
      hcommit.bind fun _ => Within.done ()
    exact hrest.from_ hasked
  · intro x _
    exact hasked

theorem processCard_alone {env : CardEnv} (hk : k ≠ id) : Within (LeftAlone k) (processCard cfg id env) := by
  have hadmits : Admits (fun _ => True) (Spared k) id := Spared.admits hk
  apply hadmits.processCard
  · exact fun _ _ hs => ⟨hs, Iff.rfl⟩
  · exact fun c => ⟨Std.Refl.refl _, by simp [hk]⟩
  · exact fun _ _ _ _ => trivial

end

/-! ### A visit -/

section
variable (cfg : Config) (contractors : List Contractor) (id : Text) (env : CardEnv) (rows : List IssueRow)

/-- What a visit makes of the rows of its card. -/
def visitRows : List IssueRow :=
  match cardRead id env.getCard with
  | .returns (.ok card) => syncedRows cfg contractors env card.idList rows
  | .returns (.error .notFound404) => if env.deleteMissing then [] else rows
  | _ => rows

/-- Nothing the visit asks for fails with an exception. -/
def VisitSafe : Prop :=
  match cardRead id env.getCard with
  | .returns (.ok card) => SyncSafe cfg contractors env card.idList rows
  | .returns (.error _) => True
  | .throws _ => False

def visitSeen : List Effect :=
  match cardRead id env.getCard with
  | .returns (.ok card) => syncedSeen cfg contractors env card.idList rows id
  | _ => []

/-- Trello says that the card is closed. -/
def ReportedClosed : Prop := ∃ card, cardRead id env.getCard = .returns (.ok card) ∧ card.isClosed

/-- The rows a visit may leave that ends halfway. -/
def VisitLeaves (left : List IssueRow) : Prop :=
  match cardRead id env.getCard with
  | .returns (.ok card) => SyncBroken cfg contractors env card.idList rows left
  | _ => left = rows

end

section
variable {cfg : Config} {id : Text} {env : CardEnv} {rows : List IssueRow} {c : Checker}

/-- A visit done. -/
structure Visit (cfg : Config) (id : Text) (env : CardEnv) (rows : List IssueRow) (c c' : Checker) :
    Prop where
  safe : VisitSafe cfg c.sh.vContractors id env rows
  rows : Visited id (visitRows cfg c.sh.vContractors id env rows)
    (visitSeen cfg c.sh.vContractors id env rows) c.sh c'.sh
  toDelete : ∀ k, k ∈ c'.vCardsToDelete ↔ k ∈ c.vCardsToDelete ∨ k = id ∧ ReportedClosed id env

/-- A visit that ended with an exception. -/
structure VisitBroken (cfg : Config) (id : Text) (env : CardEnv) (rows : List IssueRow) (c c' : Checker) :
    Prop where
  unsafe_ : ¬VisitSafe cfg c.sh.vContractors id env rows
  rows : Broken id (VisitLeaves cfg c.sh.vContractors id env rows) c.sh c'.sh

theorem Visit.commit {c' : Checker} (h : Visit cfg id env rows c c') :
    Visit cfg id env rows c {c' with sh := c'.sh.log .commit} where
  safe := h.safe
  rows := ⟨h.rows.ofCard, h.rows.seen.quiet rfl, h.rows.contractors⟩
  toDelete := h.toDelete

/-- The column of a card is recorded, then its rows are brought in line with it. -/
theorem syncCard_visits {card : JiraCard} (hread : cardRead id env.getCard = .returns (.ok card)) {d : Checker}
    (hrows : d.sh.db.ofCard id = rows) (hseen : d.sh.seen = c.sh.seen)
    (hcontractors : d.sh.vContractors = c.sh.vContractors)
    (hdelete : ∀ k, k ∈ d.vCardsToDelete ↔ k ∈ c.vCardsToDelete ∨ k = id ∧ ReportedClosed id env) :
    wp (serviceChecker do
        let _ ← sql (.updateIssue card.id) (.returns env.updateList) fun db =>
          db.updateIssues card.id (IssueRow.listed card.idList)
        syncNManageContractorsAndCards cfg card.id card.idList env)
      (fun _ => Visit cfg id env rows c) (fun _ => VisitBroken cfg id env rows c) d := by
  have hid := cardRead_id hread
  rw [wp_serviceChecker, wp_bind, wp_sql_returns, hid]
  have hlisted : (if env.updateList then d.sh.db.updateIssues id (IssueRow.listed card.idList)
      else d.sh.db).ofCard id = listedRows env card.idList rows := by
    rw [listedRows]
    split
    · rw [Db.ofCard_updateIssues (listed_keys _), hrows]
    · exact hrows
  have hseen' : (d.sh.log (.updateIssue id)).seen = c.sh.seen := (Shared.seen_other rfl _).trans hseen
  have hsynced := @syncNManage_rows cfg id
    {d.sh.log (.updateIssue id) with
      db := if env.updateList then d.sh.db.updateIssues id (IssueRow.listed card.idList) else d.sh.db}
    rows env card.idList hlisted
  apply wp_mono hsynced
  · intro _ s' h
    obtain ⟨hsafe, hvisited⟩ := h
    dsimp only [Shared.log] at hsafe hvisited
    rw [hcontractors] at hsafe hvisited
    refine ⟨?_, ⟨?_, ?_, hvisited.contractors⟩, hdelete⟩
    · rw [VisitSafe, hread]
      exact hsafe
    · rw [visitRows, hread]
      exact hvisited.ofCard
    · rw [visitSeen, hread]
      exact hvisited.seen.of_seen hseen'
  · intro _ s' h
    obtain ⟨hbad, -, hbroken⟩ := h
    dsimp only [Shared.log] at hbad hbroken
    rw [hcontractors] at hbad hbroken
    refine ⟨?_, ⟨?_, hbroken.contractors⟩⟩
    · rw [VisitSafe, hread]
      exact hbad
    · rw [VisitLeaves, hread]
      exact hbroken.ofCard

theorem answerCard_visits {card : JiraCard} (hread : cardRead id env.getCard = .returns (.ok card))
    {d : Checker} (hd : d.sh.db.ofCard id = rows ∧ d.sh.seen = c.sh.seen ∧
      d.sh.vContractors = c.sh.vContractors ∧ d.vCardsToDelete = c.vCardsToDelete) :
    wp (answerCard cfg id env (.ok card)) (fun _ => Visit cfg id env rows c)
      (fun _ => VisitBroken cfg id env rows c) d := by
  obtain ⟨hrows, hseen, hcontractors, htoDelete⟩ := hd
  have hid := cardRead_id hread
  rw [answerCard, wp_bind, wp_guarded]
  constructor
  · intro hclosed
    rw [wp_modify]
    apply syncCard_visits (d := {d with vCardsToDelete := d.vCardsToDelete ++ [id]}) hread hrows hseen hcontractors
    intro k
    rw [List.mem_append, htoDelete, List.mem_singleton]
    constructor
    · exact fun h => h.imp_right fun hk => ⟨hk, card, hread, hclosed⟩
    · exact fun h => h.imp_right And.left
  · intro hopen
    have hdelete : ∀ k, k ∈ d.vCardsToDelete ↔ k ∈ c.vCardsToDelete ∨ k = id ∧ ReportedClosed id env := by
      intro k
      rw [htoDelete]
      constructor
      · exact .inl
      · rintro (h | ⟨-, card', hread', hclosed⟩)
        · exact h
        · rw [hread, Reply.returns.injEq, Except.ok.injEq] at hread'
          exact absurd (hread' ▸ hclosed) hopen
    exact syncCard_visits hread hrows hseen hcontractors hdelete

theorem processCard_rows (hrows : c.sh.db.ofCard id = rows) :
    wp (processCard cfg id env) (fun _ => Visit cfg id env rows c)
      (fun _ => VisitBroken cfg id env rows c) c := by
  have hseen : (c.sh.log (.getCard id)).seen = c.sh.seen := Shared.seen_other rfl _
  have hnotClosed {answer : Answer (Except TrelloError JiraCard)} (h : cardRead id env.getCard = answer)
      (hok : ∀ card, answer ≠ .returns (.ok card)) : ¬ReportedClosed id env := by
    rintro ⟨card, hread, -⟩
    exact hok card (h.symm.trans hread)
  rw [processCard, getCard_eq, wp_bind, wp_serviceChecker, wp_call]
  constructor
  · intro answer hread
    rw [wp_bind]
    have hanswered : wp (answerCard cfg id env answer) (fun _ => Visit cfg id env rows c)
        (fun _ => VisitBroken cfg id env rows c) {c with sh := c.sh.log (.getCard id)} := by
      cases answer with
      | ok card => exact answerCard_visits hread ⟨hrows, hseen, rfl, rfl⟩
      | error code =>
        have hclosed := hnotClosed hread fun card h => by cases h
        have hdelete : ∀ k, k ∈ c.vCardsToDelete ↔ k ∈ c.vCardsToDelete ∨ k = id ∧ ReportedClosed id env :=
          fun k => ⟨.inl, fun h => h.resolve_right fun hn => hclosed hn.2⟩
        have hsafe : VisitSafe cfg c.sh.vContractors id env rows := by rw [VisitSafe, hread]; trivial
        have hnone {s' : Shared} (hs' : s'.seen = c.sh.seen) :
            c.sh.Shows (visitSeen cfg c.sh.vContractors id env rows) s' := by
          rw [visitSeen, hread]
          exact .of_eq (hs'.trans (List.append_nil _).symm)
        cases code with
        | notFound404 =>
          rw [answerCard, wp_serviceChecker, wp_bind, deleteIssueFromDb, wp_sql_returns]
          refine ⟨hsafe, ⟨?_, ?_, rfl⟩, hdelete⟩
          · show (if env.deleteMissing then c.sh.db.deleteIssue id else c.sh.db).ofCard id = _
            rw [visitRows, hread]
            dsimp only
            split
            · exact Db.ofCard_deleteIssue _ _
            · exact hrows
          · exact hnone ((Shared.seen_other rfl _).trans hseen)
        | _ => exact ⟨hsafe, ⟨by rw [visitRows, hread]; exact hrows, hnone hseen, rfl⟩, hdelete⟩
    apply wp_mono hanswered
    · intro _ c' h
      rw [wp_bind, wp_serviceChecker, wp_call_returns]
      exact h.commit
    · intro _ c' h
      exact h
  · intro x hread
    refine ⟨?_, ?_, rfl⟩
    · rw [VisitSafe, hread]
      exact False.elim
    · rw [VisitLeaves, hread]
      exact hrows

end

end Chanserv
