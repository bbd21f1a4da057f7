import Chanserv.Checker.Idempotence
import Chanserv.Filing.Table

/-! The contents the table of issues can have.

The bot adds rows and deletes them, the checker updates and deletes them, each by
statements of its own. `Tables` takes the statements one by one, in any order and
however the two programs are interleaved; what both keep is `Orderly`. -/
namespace Chanserv
open Text Program

/-- A contractor with a column on the board. -/
def HasColumn (c : Contractor) : Prop := c.trelloList ≠ []

/-- The tables reached by the statements of the two programs. -/
inductive Tables : Db → Prop
  | empty {db : Db} (h : db.issues = []) : Tables db
  | filed {db db' : Db} {task : NewTask} {id : Int} (h : Tables db) (hnew : NewCard db task.idCard)
    (hrow : db'.issues = db.issues ++ [{rowOfTask task with id}]) : Tables db'
  | update {db : Db} {idCard : Text} {f : IssueRow → IssueRow} (h : Tables db)
    (hf : Updating HasColumn f) : Tables (db.updateIssues idCard f)
  | delete {db : Db} {idCard : Text} (h : Tables db) : Tables (db.deleteIssue idCard)
  | other {db db' : Db} (h : Tables db) (hsame : db'.issues = db.issues) : Tables db'

/-! ### The programs -/

/-- The requests of a pass name columns, as Trello does: a card is always in one. -/
def PassEnv.Listed (env : PassEnv) : Prop :=
  ∀ k i card, cardRead k (env.card i).getCard = .returns (.ok card) → card.idList ≠ []

theorem Tables.admits (id : Text) :
    Admits HasColumn (fun s s' : Shared => Tables s.db → Tables s'.db) id where
  log _ _ _ h := h
  update _ _ hf h := h.update hf
  delete _ h := h.delete

instance : Std.Refl (fun s s' : Shared => Tables s.db → Tables s'.db) := ⟨fun _ h => h⟩

instance : IsTrans Shared (fun s s' : Shared => Tables s.db → Tables s'.db) :=
  ⟨fun _ _ _ h h' ht => h' (h ht)⟩

/-- A pass, completed or not, leads from table to table. -/
theorem checkTheList_tables {cfg : Config} {env : PassEnv} (h : env.Listed) :
    Within (OnShared fun s s' : Shared => Tables s.db → Tables s'.db) (checkTheList cfg env) := by
  apply Admits.checkTheList Tables.admits
  intro k i card c hread hlist
  rw [HasColumn, hlist]
  exact h k i card hread

/-- So does a task that is filed. -/
theorem createNewIssue_tables {cfg : Config} {env : CreateIssueEnv} {message : Message} {c : Chat}
    (hc : Tables c.sh.db) (hnew : NewCard c.sh.db (createdCard env)) :
    wp (createNewIssue cfg env message) (fun _ d => Tables d.sh.db) (fun _ d => Tables d.sh.db) c := by
  have hfiled (d : Chat) (h : Filed env c d) : Tables d.sh.db := by
    rcases h.table with hsame | ⟨task, hid, hrow⟩
    · exact hc.other (congrArg Prod.fst hsame)
    · rw [← hid] at hnew
      exact hc.filed hnew (congrArg Prod.fst hrow)
  exact wp_mono (createNewIssue_filed cfg env message c) (fun _ d => hfiled d) fun _ d => hfiled d

/-! ### What all tables have in common -/

/-- Nobody has the issue yet. -/
structure IssueRow.Free (r : IssueRow) : Prop where
  status : r.cardStatus = of "pending"
  list : r.contractorList = []
  link : r.contractorLink = []
  id : r.contractorId = []
  name : r.contractorName = []

structure IssueRow.HeldBy (r : IssueRow) (c : Contractor) : Prop where
  status : r.cardStatus = of "underway"
  list : r.contractorList = c.trelloList
  link : r.contractorLink = c.link
  id : r.contractorId = itoa c.id
  name : r.contractorName = c.name

/-- A row is free or held, and no other row has its card. -/
structure Orderly (db : Db) : Prop where
  held : ∀ r ∈ db.issues, r.Free ∨ ∃ c, HasColumn c ∧ r.HeldBy c
  alone : ∀ r ∈ db.issues, r.idCard ≠ [] → r.idCard ≠ of "1" ∧ db.ofCard r.idCard = [r]

theorem Updating.held {f : IssueRow → IssueRow} (hf : Updating HasColumn f) {r : IssueRow}
    (h : r.Free ∨ ∃ c, HasColumn c ∧ r.HeldBy c) : (f r).Free ∨ ∃ c, HasColumn c ∧ (f r).HeldBy c := by
  cases hf with
  | @assigned c hc => exact .inr ⟨c, hc, rfl, rfl, rfl, rfl, rfl⟩
  | cleared => exact .inl ⟨rfl, rfl, rfl, rfl, rfl⟩
  | listed listId =>
    rcases h with ⟨hstatus, hlist, hlink, hid, hname⟩ | ⟨c, hc, hstatus, hlist, hlink, hid, hname⟩
    · exact .inl ⟨hstatus, hlist, hlink, hid, hname⟩
    · exact .inr ⟨c, hc, hstatus, hlist, hlink, hid, hname⟩

/-- A new row takes no card from another. -/
theorem alone_filed {db db' : Db} {row : IssueRow} (hnew : NewCard db row.idCard)
    (hrow : db'.issues = db.issues ++ [row])
    (h : ∀ r ∈ db.issues, r.idCard ≠ [] → r.idCard ≠ of "1" ∧ db.ofCard r.idCard = [r]) :
    ∀ r ∈ db'.issues, r.idCard ≠ [] → r.idCard ≠ of "1" ∧ db'.ofCard r.idCard = [r] := by
  have hofCard (k : Text) : db'.ofCard k = db.ofCard k ++ if row.idCard = k then [row] else [] := by
    rw [Db.ofCard, hrow, Keyed.rows_append, Keyed.rows_cons]
    rfl
  intro r hr hne
  rw [hrow, List.mem_append, List.mem_singleton] at hr
  rcases hr with hr | rfl
  · obtain ⟨hone, hrows⟩ := h r hr hne
    have hother : row.idCard ≠ r.idCard := by
      intro hsame
      rcases hnew with hempty | ⟨-, hnew⟩
      · exact hne (hsame.symm.trans hempty)
      · exact hnew r hr hsame.symm
    rw [hofCard, if_neg hother, List.append_nil]
    exact ⟨hone, hrows⟩
  · obtain ⟨hone, hnew⟩ := hnew.resolve_left hne
    have hnone : db.ofCard r.idCard = [] := by
      rw [Db.ofCard, Keyed.rows, List.filter_eq_nil_iff]
      intro s hs
      simpa using hnew s hs
    rw [hofCard, if_pos rfl, hnone, List.nil_append]
    exact ⟨hone, rfl⟩

namespace Orderly
variable {db db' : Db}

theorem filed {task : NewTask} {id : Int} (h : Orderly db) (hnew : NewCard db task.idCard)
    (hrow : db'.issues = db.issues ++ [{rowOfTask task with id}]) : Orderly db' := by
  constructor
  · intro r hr
    rw [hrow, List.mem_append, List.mem_singleton] at hr
    rcases hr with hr | rfl
    · exact h.held r hr
    · exact .inl ⟨rfl, rfl, rfl, rfl, rfl⟩
  · exact alone_filed hnew hrow h.alone

theorem update {idCard : Text} {f : IssueRow → IssueRow} (h : Orderly db) (hf : Updating HasColumn f) :
    Orderly (db.updateIssues idCard f) := by
  have hmem {r : IssueRow} (hr : r ∈ (db.updateIssues idCard f).issues) :
      ∃ s ∈ db.issues, (s.idCard = idCard ∧ r = f s) ∨ s.idCard ≠ idCard ∧ r = s := by
    obtain ⟨s, hs, rfl⟩ := List.mem_map.mp hr
    refine ⟨s, hs, ?_⟩
    by_cases hid : s.idCard = idCard
    · exact .inl ⟨hid, if_pos hid⟩
    · exact .inr ⟨hid, if_neg hid⟩
  constructor
  · intro r hr
    obtain ⟨s, hs, ⟨-, rfl⟩ | ⟨-, rfl⟩⟩ := hmem hr
    · exact hf.held (h.held s hs)
    · exact h.held r hs
  · intro r hr hne
    obtain ⟨s, hs, ⟨hid, rfl⟩ | ⟨hid, rfl⟩⟩ := hmem hr
    · have hsame : (f s).idCard = s.idCard := idCard_of_keys hf.keys s
      rw [hsame] at hne ⊢
      obtain ⟨hone, hrows⟩ := h.alone s hs hne
      refine ⟨hone, ?_⟩
      rw [hid, Db.ofCard_updateIssues hf.keys, ← hid, hrows]
      rfl
    · obtain ⟨hone, hrows⟩ := h.alone r hs hne
      exact ⟨hone, (Db.ofCard_updateIssues_ne hf.keys hid db).trans hrows⟩

theorem other (h : Orderly db) (hsame : db'.issues = db.issues) : Orderly db' := by
  have hofCard (k : Text) : db'.ofCard k = db.ofCard k := by rw [Db.ofCard, hsame, Db.ofCard]
  constructor
  · exact fun r hr => h.held r (hsame ▸ hr)
  · intro r hr hne
    rw [hofCard]
    exact h.alone r (hsame ▸ hr) hne

theorem delete {idCard : Text} (h : Orderly db) : Orderly (db.deleteIssue idCard) := by
  constructor
  · exact fun r hr => h.held r (List.mem_filter.mp hr).1
  · intro r hr hne
    obtain ⟨hr, hid⟩ := List.mem_filter.mp hr
    obtain ⟨hone, hrows⟩ := h.alone r hr hne
    exact ⟨hone, (Db.ofCard_deleteIssue_ne (by simpa using hid) db).trans hrows⟩

end Orderly

/-- Every table the two programs can reach is in order. -/
theorem Tables.orderly {db : Db} (h : Tables db) : Orderly db := by
  induction h with
  | empty h =>
    constructor
    · intro r hr
      rw [h] at hr
      cases hr
    · intro r hr
      rw [h] at hr
      cases hr
  | filed _ hnew hrow ih => exact ih.filed hnew hrow
  | update _ hf ih => exact ih.update hf
  | delete _ ih => exact ih.delete
  | other _ hsame ih => exact ih.other hsame

end Chanserv
