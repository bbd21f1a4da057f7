import Chanserv.Checker.Pass
import Chanserv.Program.Keyed
import Chanserv.Staff

/-! What a visit to one card does to the rows of that card, and to no others.

All statements of a visit name the card, so the table is looked at one card at a
time (`Db.ofCard`). The functions below compute what becomes of the rows of the
card and whom the visit writes to; `processCard_rows` says that the program does
exactly this, whatever fails. -/
namespace Chanserv
open Text Program

/-! ### The table, card by card -/

/-- What a statement of the checker never writes. -/
def IssueRow.keys (r : IssueRow) : Int × Text := (r.id, r.idCard)

theorem idCard_of_keys {f : IssueRow → IssueRow} (hf : ∀ r, (f r).keys = r.keys) (r : IssueRow) :
    (f r).idCard = r.idCard :=
  congrArg Prod.snd (hf r)

/-- The rows of a card. -/
def Db.ofCard (db : Db) (id : Text) : List IssueRow := Keyed.rows IssueRow.idCard id db.issues

namespace Db
variable {db : Db} {id j : Text} {f : IssueRow → IssueRow}

theorem selectIssue_eq (db : Db) (id : Text) : db.selectIssue id = (db.ofCard id).head? :=
  Keyed.find_eq_head db.issues

theorem ofCard_updateIssues (hf : ∀ r, (f r).keys = r.keys) (db : Db) (id : Text) :
    (db.updateIssues id f).ofCard id = (db.ofCard id).map f :=
  Keyed.rows_update (idCard_of_keys hf) db.issues

theorem ofCard_updateIssues_ne (hf : ∀ r, (f r).keys = r.keys) (h : j ≠ id) (db : Db) :
    (db.updateIssues id f).ofCard j = db.ofCard j :=
  Keyed.rows_update_ne (idCard_of_keys hf) h db.issues

theorem ofCard_deleteIssue (db : Db) (id : Text) : (db.deleteIssue id).ofCard id = [] :=
  Keyed.rows_delete db.issues

theorem ofCard_deleteIssue_ne (h : j ≠ id) (db : Db) : (db.deleteIssue id).ofCard j = db.ofCard j :=
  Keyed.rows_delete_ne h db.issues

end Db

/-- What people see of the checker: messages to a user, as it sends them to customers,
contractors and staff, and cards archived. -/
def Effect.isSeen : Effect → Bool
  | .sendMessage (.user _) .. => true
  | .archivingCard _ => true
  | _ => false

def Shared.seen (s : Shared) : List Effect := s.trace.filter Effect.isSeen

theorem Shared.seen_log (s : Shared) (e : Effect) :
    (s.log e).seen = s.seen ++ if e.isSeen then [e] else [] :=
  Shared.filter_log Effect.isSeen s e

theorem Shared.seen_other {e : Effect} (h : e.isSeen = false) (s : Shared) : (s.log e).seen = s.seen := by
  rw [Shared.seen_log, h, if_neg Bool.false_ne_true, List.append_nil]

/-- This is seen on the way; what goes beside other work may come before it or after it. -/
def Shared.Shows (s : Shared) (seen : List Effect) (s' : Shared) : Prop :=
  ∃ told, s'.seen = s.seen ++ told ∧ told.Perm seen

section
variable {s s₁ s' : Shared} {seen seen' : List Effect}

theorem Shared.Shows.of_eq (h : s'.seen = s.seen ++ seen) : s.Shows seen s' := ⟨seen, h, .refl seen⟩

theorem Shared.Shows.trans (h : s.Shows seen s₁) (h' : s₁.Shows seen' s') : s.Shows (seen ++ seen') s' := by
  obtain ⟨told, hs₁, hperm⟩ := h
  obtain ⟨told', hs', hperm'⟩ := h'
  exact ⟨told ++ told', by rw [hs', hs₁, List.append_assoc], hperm.append hperm'⟩

theorem Shared.Shows.log (h : s.Shows seen s') (e : Effect) :
    s.Shows (seen ++ if e.isSeen then [e] else []) (s'.log e) :=
  h.trans (.of_eq (Shared.seen_log s' e))

theorem Shared.Shows.quiet {e : Effect} (h : s.Shows seen s') (he : e.isSeen = false) : s.Shows seen (s'.log e) := by
  obtain ⟨told, hs', hperm⟩ := h
  exact ⟨told, (Shared.seen_other he s').trans hs', hperm⟩

theorem Shared.Shows.perm (h : s.Shows seen s') (hperm : seen.Perm seen') : s.Shows seen' s' := by
  obtain ⟨told, hs', htold⟩ := h
  exact ⟨told, hs', htold.trans hperm⟩

/-- The same, from any state in which as much was seen. -/
theorem Shared.Shows.of_seen (h : s₁.Shows seen s') (hs : s₁.seen = s.seen) : s.Shows seen s' := by
  rw [Shared.Shows, ← hs]
  exact h

theorem Shared.Shows.none (h : s.Shows [] s') : s'.seen = s.seen := by
  obtain ⟨told, hs', hperm⟩ := h
  rw [hs', hperm.eq_nil, List.append_nil]

end

@[simp] theorem Shared.seen_mk (s : Shared) (db : Db) (consumers : List Int)
    (contractors : List Contractor) (allowed : List Int) (notified : List (Text × Text)) :
    Shared.seen ⟨db, consumers, contractors, allowed, notified, s.trace⟩ = s.seen := rfl

@[simp] theorem Shared.db_log (s : Shared) (e : Effect) : (s.log e).db = s.db := rfl

section
variable {α : Type} {E : Stop → Shared → Prop} {s : Shared}

/-- A statement reports its failure and does nothing else. -/
theorem wp_sql_returns {e : Effect} {ok : Bool} {f : Db → Db} {Q : Bool → Shared → Prop} :
    wp (sql e (.returns ok) f) Q E s ↔ Q ok {s.log e with db := if ok then f s.db else s.db} := by
  rw [wp_sql]
  cases ok with
  | true => exact ⟨fun h => h.1 rfl, fun h => ⟨fun _ => h, fun hr => (by cases hr), fun _ hr => (by cases hr)⟩⟩
  | false => exact ⟨fun h => h.2.1 rfl, fun h => ⟨fun hr => (by cases hr), fun _ => h, fun _ hr => (by cases hr)⟩⟩

theorem wp_call_returns {e : Effect} {a : α} {Q : α → Shared → Prop} :
    wp (call e (.returns a)) Q E s ↔ Q a (s.log e) := by
  simp

end

/-- A read of the first row of a card. -/
def readRow (ok : Bool) (rows : List IssueRow) : Option IssueRow := if ok then rows.head? else none

@[simp] theorem wp_selectOfCard {cardId : Text} {ok : Bool} {Q : Option IssueRow → Shared → Prop}
    {E : Stop → Shared → Prop} {s : Shared} :
    wp (selectOfCard cardId ok) Q E s ↔ Q (readRow ok (s.db.ofCard cardId)) (s.log .selectRows) := by
  have hhead : (s.db.selectIssue cardId).toList.head? = (s.db.ofCard cardId).head? := by
    rw [Db.selectIssue_eq]
    cases (s.db.ofCard cardId).head? <;> rfl
  cases ok <;> simp [selectOfCard, readRow, hhead]

/-! ### What becomes of the rows of a card -/

/-- The customer the first row of a card names. -/
def customerOf (ok : Bool) (rows : List IssueRow) : Int :=
  toULong (column (readRow ok rows) IssueRow.consumerId)

def assignedRows (c : Contractor) (env : AssignEnv) (rows : List IssueRow) : List IssueRow :=
  if env.update then rows.map (IssueRow.assigned c) else rows

/-- Both can be told of the assignment. -/
def AssignEnv.Safe (env : AssignEnv) (c : Contractor) (rows : List IssueRow) : Prop :=
  env.update →
    (env.customer (customerOf env.selectConsumer rows)).Normal ∧ (env.contractor c.id).Normal

def assignedSeen (c : Contractor) (env : AssignEnv) (rows : List IssueRow) : List Effect :=
  if env.update then
    [ .sendMessage (.user (customerOf env.selectConsumer rows))
        (of "Вашу задачу выполнит " ++ c.name ++ of "!\n")
        (.contactContractor (of "https://t.me/" ++ c.link)),
      .sendMessage (.user c.id)
        (of "❗️❗️❗️ \nУ вас появилась новая задача - проверьте свои задачи") ]
  else []

/-- The message to a customer whose task is to be written anew. -/
def refusal (customer : Int) : Effect :=
  .sendMessage (.user customer)
    (of "Извините, но наши специалисты вас не поняли.\nСформулируйсте вопрос подробнее и создайте новую задачу")

def reworkNotice (row : Option IssueRow) : Text :=
  of "Уведомление 'Cоздайте новую задачу' юзеру " ++ column row IssueRow.consumerName ++
    of " по задаче " ++ column row IssueRow.theme ++ of " отправлено"

/-- Every call of the rework returns. -/
def ReworkEnv.Safe (cfg : Config) (env : ReworkEnv) (rows : List IssueRow) : Prop :=
  (env.customer (customerOf env.selectCustomer rows)).Normal ∧ StaffSpared cfg env.staff ∧ env.archive.Normal

/-- The notice to staff ends the process, and the DELETE was made by then. -/
def ReworkEnv.DeletesAhead (cfg : Config) (env : ReworkEnv) (rows : List IssueRow) : Prop :=
  (env.customer (customerOf env.selectCustomer rows)).Normal ∧ env.archive.Normal ∧
    ∃ i, FailsAt cfg env.staff i ∧ 2 ≤ made env.ahead i

def reworkedRows (env : ReworkEnv) (rows : List IssueRow) : List IssueRow :=
  if env.delete then [] else rows

def reworkNotices (cfg : Config) (env : ReworkEnv) (rows : List IssueRow) : List Effect :=
  cfg.vStaff.map fun employee =>
    .sendMessage (.user employee) (reworkNotice (readRow env.selectCustomer rows)) .none

def reworkedSeen (cfg : Config) (id : Text) (env : ReworkEnv) (rows : List IssueRow) : List Effect :=
  refusal (customerOf env.selectCustomer rows) :: (reworkNotices cfg env rows ++ [.archivingCard id])

section
variable (cfg : Config) (contractors : List Contractor) (env : CardEnv) (listId : Text)
  (rows : List IssueRow)

/-- After the column of the card was recorded. -/
def listedRows : List IssueRow := if env.updateList then rows.map (IssueRow.listed listId) else rows

/-- The column recorded. -/
def recordedList : Text :=
  column (readRow env.selectLists (listedRows env listId rows)) IssueRow.idCardList

/-- The card is back in the first column, and has a contractor. -/
def HandedBack : Prop :=
  recordedList env listId rows = cfg.distributionList ∧
    column (readRow env.selectLists (listedRows env listId rows)) IssueRow.contractorList ≠ []

instance : Decidable (HandedBack cfg env listId rows) := inferInstanceAs (Decidable (_ ∧ _))

/-- After a card that was handed back lost its contractor. -/
def clearedRows : List IssueRow :=
  if HandedBack cfg env listId rows ∧ env.clear then (listedRows env listId rows).map IssueRow.cleared
  else listedRows env listId rows

/-- The status the pass checks. -/
def checkedStatus : Text :=
  column (readRow env.selectStatus (clearedRows cfg env listId rows)) IssueRow.cardStatus

/-- After a pending card was assigned, if its column is that of a contractor. -/
def ownedRows : List IssueRow :=
  match ownerOf contractors listId with
  | some c => assignedRows c env.assign (clearedRows cfg env listId rows)
  | none => clearedRows cfg env listId rows

/-- The rows of the card when all is done. -/
def syncedRows : List IssueRow :=
  if checkedStatus cfg env listId rows = of "pending" then
    if recordedList env listId rows = cfg.reworkList then
      reworkedRows env.rework (ownedRows cfg contractors env listId rows)
    else ownedRows cfg contractors env listId rows
  else clearedRows cfg env listId rows

/-- The rows a visit leaves that ends halfway: a notice to staff may end it when the card is deleted already. -/
def SyncBroken (left : List IssueRow) : Prop :=
  left = ownedRows cfg contractors env listId rows ∨
    recordedList env listId rows = cfg.reworkList ∧
      left = reworkedRows env.rework (ownedRows cfg contractors env listId rows)

/-- No message and no request of the visit fails. -/
def SyncSafe : Prop :=
  checkedStatus cfg env listId rows = of "pending" →
    (∀ c, ownerOf contractors listId = some c →
      env.assign.Safe c (assignedRows c env.assign (clearedRows cfg env listId rows))) ∧
    (recordedList env listId rows = cfg.reworkList →
      env.rework.Safe cfg (ownedRows cfg contractors env listId rows))

/-- What is seen of the visit. -/
def syncedSeen (id : Text) : List Effect :=
  if checkedStatus cfg env listId rows = of "pending" then
    (match ownerOf contractors listId with
      | some c => assignedSeen c env.assign (assignedRows c env.assign (clearedRows cfg env listId rows))
      | none => []) ++
    if recordedList env listId rows = cfg.reworkList then
      reworkedSeen cfg id env.rework (ownedRows cfg contractors env listId rows)
    else []
  else []

end

/-! ### The program does this -/

/-- The rows of a card are now these, and these messages were sent on the way. -/
structure Visited (id : Text) (rows : List IssueRow) (seen : List Effect) (s s' : Shared) : Prop where
  ofCard : s'.db.ofCard id = rows
  seen : s.Shows seen s'
  contractors : s'.vContractors = s.vContractors

/-- A visit that ended halfway. -/
structure Broken (id : Text) (left : List IssueRow → Prop) (s s' : Shared) : Prop where
  ofCard : left (s'.db.ofCard id)
  contractors : s'.vContractors = s.vContractors

theorem assigned_keys (c : Contractor) (r : IssueRow) : (r.assigned c).keys = r.keys := rfl

theorem cleared_keys (r : IssueRow) : r.cleared.keys = r.keys := rfl

theorem listed_keys (listId : Text) (r : IssueRow) : (r.listed listId).keys = r.keys := rfl

section
variable {cfg : Config} {id : Text} {s : Shared} {rows : List IssueRow}

theorem assignContractorToCard_rows (hrows : s.db.ofCard id = rows) (c : Contractor) (env : AssignEnv) :
    wp (assignContractorToCard id c env)
      (fun _ s' => env.Safe c (assignedRows c env rows) ∧
        Visited id (assignedRows c env rows) (assignedSeen c env (assignedRows c env rows)) s s')
      (fun _ s' => ¬env.Safe c (assignedRows c env rows) ∧ Broken id (· = assignedRows c env rows) s s') s := by
  have hafter : (if env.update then s.db.updateIssues id (IssueRow.assigned c) else s.db).ofCard id =
      assignedRows c env rows := by
    rw [assignedRows]
    split
    · rw [Db.ofCard_updateIssues (assigned_keys c), hrows]
    · exact hrows
  have hlog (t : Shared) (e : Effect) : (t.log e).seen = t.seen ++ if e.isSeen then [e] else [] :=
    t.seen_log e
  rw [assignContractorToCard, wp_bind, wp_sql_returns, wp_guarded]
  constructor
  · intro hu
    rw [wp_bind, wp_call_returns, wp_bind, wp_selectOfCard, Shared.db_log, hafter, wp_bind, wp_call]
    constructor
    · intro _ hcustomer
      rw [wp_bind, wp_call]
      constructor
      · intro _ hcontractor
        refine ⟨fun _ => ⟨?_, ?_⟩, hafter, ?_, rfl⟩
        · rw [customerOf, hcustomer]
          trivial
        · rw [hcontractor]
          trivial
        · exact .of_eq (by simp [assignedSeen, hu, hlog, Effect.isSeen, customerOf])
      · intro x hcontractor
        exact ⟨fun h => (h hu).2.not_throws hcontractor, hafter, rfl⟩
    · intro x hcustomer
      exact ⟨fun h => (h hu).1.not_throws hcustomer, hafter, rfl⟩
  · intro hu
    exact ⟨fun h => absurd h hu, hafter, .of_eq (by simp [assignedSeen, hu, hlog, Effect.isSeen]), rfl⟩

/-- A rework of which `i` messages of the notice are tried and `k` statements made. -/
structure Reworking (cfg : Config) (id : Text) (env : ReworkEnv) (rows : List IssueRow) (s : Shared) (i k : Nat)
    (s' : Shared) : Prop where
  archived : 1 ≤ k → env.archive.Normal
  ofCard : s'.db.ofCard id = if 2 ≤ k then reworkedRows env rows else rows
  seen : s.Shows ((reworkNotices cfg env rows).take i ++ if 1 ≤ k then [.archivingCard id] else []) s'
  contractors : s'.vContractors = s.vContractors

/-- One message more. -/
theorem Reworking.notice {env : ReworkEnv} {i k : Nat} {employee : Int} {s' : Shared}
    (h : Reworking cfg id env rows s i k s') (hi : cfg.vStaff[i]? = some employee) :
    Reworking cfg id env rows s (i + 1) k
      (s'.log (.sendMessage (.user employee) (reworkNotice (readRow env.selectCustomer rows)) .none)) := by
  have hnext : (reworkNotices cfg env rows)[i]? =
      some (.sendMessage (.user employee) (reworkNotice (readRow env.selectCustomer rows)) .none) := by
    rw [reworkNotices, List.getElem?_map, hi, Option.map_some]
  refine ⟨h.archived, h.ofCard, (h.seen.log _).perm ?_, h.contractors⟩
  rw [List.take_add_one, hnext, Effect.isSeen, if_pos rfl, Option.toList_some, List.append_assoc, List.append_assoc]
  exact List.perm_append_comm.append_left _

/-- One statement more, unless Trello cannot be asked to archive the card. -/
theorem Reworking.statement {env : ReworkEnv} {i k : Nat} {m : ServiceM Unit} {s' : Shared}
    (h : Reworking cfg id env rows s i k s')
    (hm : [ archivingCard id env.archive,
      do let _ ← deleteIssueFromDb id (.returns env.delete),
      do let _ ← call .commit (.returns env.commit) ][k]? = some m) :
    wp m (fun _ => Reworking cfg id env rows s i (k + 1))
      (fun stop t => stop.fatal = false ∧ ¬env.archive.Normal ∧ t.db.ofCard id = rows ∧
        t.vContractors = s.vContractors) s' := by
  match k, hm with
  | 0, hm =>
    cases hm
    rw [archivingCard, wp_call]
    constructor
    · intro _ harchive
      refine ⟨fun _ => by rw [harchive]; trivial, h.ofCard, ?_, h.contractors⟩
      have hseen := h.seen.log (.archivingCard id)
      rw [if_neg (by omega), List.append_nil, Effect.isSeen, if_pos rfl] at hseen
      rw [if_pos (Nat.le_refl 1)]
      exact hseen
    · exact fun x harchive => ⟨rfl, fun hn => hn.not_throws harchive, h.ofCard, h.contractors⟩
  | 1, hm =>
    cases hm
    rw [wp_bind, deleteIssueFromDb, wp_sql_returns]
    refine ⟨fun _ => h.archived (Nat.le_refl 1), ?_, ?_, h.contractors⟩
    · have hrows : s'.db.ofCard id = rows := h.ofCard
      show (if env.delete then s'.db.deleteIssue id else s'.db).ofCard id = reworkedRows env rows
      rw [reworkedRows]
      split
      · exact Db.ofCard_deleteIssue _ _
      · exact hrows
    · exact h.seen.quiet (e := .deleteIssue id) rfl
  | 2, hm =>
    cases hm
    rw [wp_bind, wp_call_returns]
    exact ⟨fun _ => h.archived (by omega), h.ofCard, h.seen.quiet rfl, h.contractors⟩
  | _ + 3, hm => cases hm

theorem reworkCardAndNotify_rows (hrows : s.db.ofCard id = rows) (env : ReworkEnv) :
    wp (reworkCardAndNotify cfg id env)
      (fun _ s' => env.Safe cfg rows ∧
        Visited id (reworkedRows env rows) (reworkedSeen cfg id env rows) s s')
      (fun _ s' => ¬env.Safe cfg rows ∧ Broken id (fun left => env.DeletesAhead cfg rows ∧ left = reworkedRows env rows ∨
        ¬env.DeletesAhead cfg rows ∧ left = rows) s s') s := by
  rw [reworkCardAndNotify, wp_bind, wp_selectOfCard, hrows, wp_bind, wp_call]
  constructor
  · intro _ hsent
    let told : Shared := (s.log .selectRows).log (refusal (customerOf env.selectCustomer rows))
    have htold : s.Shows [refusal (customerOf env.selectCustomer rows)] told :=
      (Shared.Shows.of_eq (Shared.seen_log (s.log .selectRows) _)).of_seen (Shared.seen_other rfl s)
    have hcustomer : (env.customer (customerOf env.selectCustomer rows)).Normal := by
      rw [customerOf, hsent]
      trivial
    have hstart : Reworking cfg id env rows told 0 0 told :=
      ⟨fun h => absurd h (by decide), hrows, .of_eq (by simp), rfl⟩
    refine wp_mono (wp_besideNotice (I := Reworking cfg id env rows told)
      (J := fun _ t => ¬env.archive.Normal ∧ t.db.ofCard id = rows ∧ t.vContractors = told.vContractors)
      (fun i employee hi k t h => h.notice hi) (fun k m hm i t h => h.statement hm) (fun _ _ _ _ h => h) hstart) ?_ ?_
    · rintro _ t ⟨hstaff, hdone⟩
      have hdone : Reworking cfg id env rows told cfg.vStaff.length 3 t := hdone
      refine ⟨⟨hcustomer, hstaff, hdone.archived (by decide)⟩, hdone.ofCard, ?_, hdone.contractors⟩
      have hall : (reworkNotices cfg env rows).take cfg.vStaff.length = reworkNotices cfg env rows :=
        List.take_of_length_le (Nat.le_of_eq (List.length_map _))
      have hseen := htold.trans hdone.seen
      rw [hall, if_pos (by decide)] at hseen
      exact hseen
    · have hunarchived {t : Shared}
          (h : ¬env.archive.Normal ∧ t.db.ofCard id = rows ∧ t.vContractors = told.vContractors) :
          ¬env.Safe cfg rows ∧ Broken id (fun left => env.DeletesAhead cfg rows ∧ left = reworkedRows env rows ∨
            ¬env.DeletesAhead cfg rows ∧ left = rows) s t :=
        ⟨fun hsafe => h.1 hsafe.2.2, .inr ⟨fun hahead => h.1 hahead.2.1, h.2.1⟩, h.2.2⟩
      rintro stop t (⟨-, h⟩ | ⟨-, -, _, h⟩ | ⟨-, i, hfails, h⟩)
      · exact hunarchived h
      · exact hunarchived h
      · have h : Reworking cfg id env rows told (i + 1) (min 3 (made env.ahead i)) t := h
        refine ⟨fun hsafe => hfails.not_spared hsafe.2.1, ?_, h.contractors⟩
        have hrows' := h.ofCard
        by_cases hmade : 2 ≤ made env.ahead i
        · rw [if_pos (by omega)] at hrows'
          exact .inl ⟨⟨hcustomer, h.archived (by omega), i, hfails, hmade⟩, hrows'⟩
        · rw [if_neg (by omega)] at hrows'
          refine .inr ⟨?_, hrows'⟩
          rintro ⟨-, -, j, hj, hle⟩
          rw [hj.unique hfails] at hle
          exact hmade hle
  · intro x hcustomer
    exact ⟨fun h => h.1.not_throws hcustomer, .inr ⟨fun h => h.1.not_throws hcustomer, hrows⟩, rfl⟩

theorem syncDistributedCard_rows {env : CardEnv} {listId : Text}
    (hrows : s.db.ofCard id = listedRows env listId rows) {E : Stop → Shared → Prop} :
    wp (syncDistributedCard cfg id env)
      (fun dbCardListId s' => dbCardListId = recordedList env listId rows ∧
        Visited id (clearedRows cfg env listId rows) [] s s') E s := by
  rw [syncDistributedCard, wp_bind, wp_selectOfCard, hrows, wp_bind, wp_guarded]
  constructor
  · intro hback
    have hback : HandedBack cfg env listId rows := hback
    rw [wp_bind, wp_sql_returns]
    refine ⟨rfl, ?_, ?_, rfl⟩
    · show (if env.clear then s.db.updateIssues id IssueRow.cleared else s.db).ofCard id = _
      by_cases hclear : env.clear
      · rw [if_pos hclear, Db.ofCard_updateIssues cleared_keys, hrows, clearedRows,
          if_pos ⟨hback, hclear⟩]
      · rw [if_neg hclear, hrows, clearedRows, if_neg fun h => hclear h.2]
    · refine .of_eq ?_
      show ((s.log .selectRows).log (.updateIssue id)).seen = _
      rw [Shared.seen_other rfl, Shared.seen_other rfl, List.append_nil]
  · intro hkept
    have hkept : ¬HandedBack cfg env listId rows := hkept
    refine ⟨rfl, ?_, ?_, rfl⟩
    · rw [clearedRows, if_neg fun h => hkept h.1]
      exact hrows
    · exact .of_eq (by rw [Shared.seen_other rfl, List.append_nil])

/-- What is left to do for a pending card once the owner of the column, if any, has it. -/
theorem reworkOwned_rows {env : CardEnv} {listId : Text} {seenOwner : List Effect} {s₂ : Shared}
    (hstatus : checkedStatus cfg env listId rows = of "pending")
    (hseen : syncedSeen cfg s.vContractors env listId rows id = seenOwner ++
      if recordedList env listId rows = cfg.reworkList then
        reworkedSeen cfg id env.rework (ownedRows cfg s.vContractors env listId rows)
      else [])
    (howner : ∀ c, ownerOf s.vContractors listId = some c →
      env.assign.Safe c (assignedRows c env.assign (clearedRows cfg env listId rows)))
    (h₂ : Visited id (ownedRows cfg s.vContractors env listId rows) seenOwner s s₂) :
    wp (guarded (recordedList env listId rows = cfg.reworkList) (reworkCardAndNotify cfg id env.rework))
      (fun _ s' => SyncSafe cfg s.vContractors env listId rows ∧
        Visited id (syncedRows cfg s.vContractors env listId rows)
          (syncedSeen cfg s.vContractors env listId rows id) s s')
      (fun _ s' => ¬SyncSafe cfg s.vContractors env listId rows ∧
        checkedStatus cfg env listId rows = of "pending" ∧
        Broken id (SyncBroken cfg s.vContractors env listId rows) s s') s₂ := by
  have hsynced : syncedRows cfg s.vContractors env listId rows =
      if recordedList env listId rows = cfg.reworkList then
        reworkedRows env.rework (ownedRows cfg s.vContractors env listId rows)
      else ownedRows cfg s.vContractors env listId rows := by
    rw [syncedRows, if_pos hstatus]
  rw [hseen, hsynced, wp_guarded]
  constructor
  · intro hlist
    rw [if_pos hlist, if_pos hlist]
    apply wp_mono (reworkCardAndNotify_rows h₂.ofCard env.rework)
    · intro _ s₃ h₃
      exact ⟨fun _ => ⟨howner, fun _ => h₃.1⟩, h₃.2.ofCard, h₂.seen.trans h₃.2.seen,
        h₃.2.contractors.trans h₂.contractors⟩
    · rintro _ s₃ ⟨hbad, hbroken⟩
      refine ⟨fun h => hbad ((h hstatus).2 hlist), hstatus, ?_, hbroken.contractors.trans h₂.contractors⟩
      rcases hbroken.ofCard with ⟨-, hgone⟩ | ⟨-, hkept⟩
      · exact .inr ⟨hlist, hgone⟩
      · exact .inl hkept
  · intro hlist
    rw [if_neg hlist, if_neg hlist, List.append_nil]
    exact ⟨fun _ => ⟨howner, fun h => absurd h hlist⟩, h₂⟩

variable (cfg) in
theorem syncNManage_rows {env : CardEnv} {listId : Text}
    (hrows : s.db.ofCard id = listedRows env listId rows) :
    wp (syncNManageContractorsAndCards cfg id listId env)
      (fun _ s' => SyncSafe cfg s.vContractors env listId rows ∧
        Visited id (syncedRows cfg s.vContractors env listId rows)
          (syncedSeen cfg s.vContractors env listId rows id) s s')
      (fun _ s' => ¬SyncSafe cfg s.vContractors env listId rows ∧
        checkedStatus cfg env listId rows = of "pending" ∧
        Broken id (SyncBroken cfg s.vContractors env listId rows) s s') s := by
  rw [syncNManageContractorsAndCards, wp_bind]
  refine wp_mono (syncDistributedCard_rows hrows) (fun dbCardListId s₁ h₁ => ?_) fun _ _ h => h
  obtain ⟨rfl, hcleared, hseen₁, hcontractors₁⟩ := h₁
  rw [wp_bind, wp_selectOfCard, hcleared, wp_guarded]
  have hseen₂ : (s₁.log .selectRows).seen = s.seen := (Shared.seen_other rfl s₁).trans hseen₁.none
  constructor
  · intro hstatus
    have hstatus : checkedStatus cfg env listId rows = of "pending" := hstatus
    let seenOwner : List Effect := match ownerOf s.vContractors listId with
      | some c => assignedSeen c env.assign (assignedRows c env.assign (clearedRows cfg env listId rows))
      | none => []
    have hseen : syncedSeen cfg s.vContractors env listId rows id = seenOwner ++
        if recordedList env listId rows = cfg.reworkList then
          reworkedSeen cfg id env.rework (ownedRows cfg s.vContractors env listId rows)
        else [] := by
      rw [syncedSeen, if_pos hstatus]
    rw [wp_bind, wp_get, wp_bind]
    show wp ((ownerOf s₁.vContractors listId).elim (pure ()) fun c =>
      assignContractorToCard id c env.assign) _ _ _
    rw [hcontractors₁]
    cases hc : ownerOf s.vContractors listId with
    | none =>
      rw [Option.elim_none, wp_pure]
      apply reworkOwned_rows hstatus hseen
      · intro c hc'
        rw [hc] at hc'
        cases hc'
      · refine ⟨?_, ?_, hcontractors₁⟩
        · rw [ownedRows, hc]
          exact hcleared
        · simp only [seenOwner, hc]
          exact .of_eq (hseen₂.trans (List.append_nil _).symm)
    | some c =>
      have howned : ownedRows cfg s.vContractors env listId rows =
          assignedRows c env.assign (clearedRows cfg env listId rows) := by rw [ownedRows, hc]
      rw [Option.elim_some]
      apply wp_mono (assignContractorToCard_rows (s := s₁.log .selectRows) hcleared c env.assign)
      · intro _ s₂ h₂
        apply reworkOwned_rows hstatus hseen
        · intro c' hc'
          rw [hc, Option.some.injEq] at hc'
          exact hc' ▸ h₂.1
        · refine ⟨howned ▸ h₂.2.ofCard, ?_, h₂.2.contractors.trans hcontractors₁⟩
          simp only [seenOwner, hc]
          exact h₂.2.seen.of_seen hseen₂
      · intro _ s₂ h₂
        refine ⟨fun h => h₂.1 ((h hstatus).1 c hc), hstatus, .inl (howned ▸ h₂.2.ofCard), ?_⟩
        exact h₂.2.contractors.trans hcontractors₁
  · intro hstatus
    have hstatus : ¬checkedStatus cfg env listId rows = of "pending" := hstatus
    refine ⟨fun h => absurd h hstatus, ?_, ?_, hcontractors₁⟩
    · rw [syncedRows, if_neg hstatus]
      exact hcleared
    · rw [syncedSeen, if_neg hstatus]
      exact .of_eq (hseen₂.trans (List.append_nil _).symm)

end

end Chanserv
