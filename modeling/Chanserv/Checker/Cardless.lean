import Mathlib.Logic.Relation
import Chanserv.Checker.Tables

/-! Issues without a card.

A task whose card could not be created is written with the empty id, and a pass
asks Trello for the card with that id. Whatever the answer leads to happens to all
such rows at once. They survive as long as the answer is none that removes a row
(`SparesCardless`); rows with a card of their own are removed one by one. -/
namespace Chanserv
open Text Program

/-- Trello's answers about the card with the empty id remove no row: there is such a card or the
request fails otherwise, and the card is open and not in the column for tasks to be written anew. -/
def PassEnv.SparesCardless (cfg : Config) (env : PassEnv) (db : Db) : Prop :=
  ∀ x ∈ (env.ids db).zipIdx, x.1 = [] →
    cardRead [] (env.card x.2).getCard ≠ .returns (.error .notFound404) ∧
    ∀ card, cardRead [] (env.card x.2).getCard = .returns (.ok card) →
      card.isClosed = false ∧ card.idList ≠ cfg.reworkList

/-! ### The columns recorded -/

section
variable {cfg : Config} {contractors : List Contractor} {v : CardEnv} {listId k : Text}
  {rows : List IssueRow} {P : Text → Prop}

theorem listedRows_lists (hrows : ∀ r ∈ rows, P r.idCardList) (hlist : P listId) :
    ∀ s ∈ listedRows v listId rows, P s.idCardList := by
  intro s hs
  rw [listedRows] at hs
  split at hs
  · obtain ⟨r, -, rfl⟩ := List.mem_map.mp hs
    exact hlist
  · exact hrows s hs

theorem clearedRows_lists (hrows : ∀ r ∈ rows, P r.idCardList) (hlist : P listId) :
    ∀ s ∈ clearedRows cfg v listId rows, P s.idCardList := by
  intro s hs
  rw [clearedRows] at hs
  split at hs
  · obtain ⟨r, hr, rfl⟩ := List.mem_map.mp hs
    exact listedRows_lists hrows hlist r hr
  · exact listedRows_lists hrows hlist s hs

theorem ownedRows_lists (hrows : ∀ r ∈ rows, P r.idCardList) (hlist : P listId) :
    ∀ s ∈ ownedRows cfg contractors v listId rows, P s.idCardList := by
  intro s hs
  rw [ownedRows] at hs
  cases hc : ownerOf contractors listId with
  | none =>
    rw [hc] at hs
    exact clearedRows_lists hrows hlist s hs
  | some c =>
    rw [hc] at hs
    dsimp only at hs
    rw [assignedRows] at hs
    split at hs
    · obtain ⟨r, hr, rfl⟩ := List.mem_map.mp hs
      exact clearedRows_lists hrows hlist r hr
    · exact clearedRows_lists hrows hlist s hs

/-- A visit records no other column than the one it was told. -/
theorem visitRows_lists (hrows : ∀ r ∈ rows, P r.idCardList)
    (hlist : ∀ card, cardRead k v.getCard = .returns (.ok card) → P card.idList) :
    ∀ s ∈ visitRows cfg contractors k v rows, P s.idCardList := by
  intro s hs
  rw [visitRows] at hs
  split at hs
  next card hread =>
    have hcard := hlist card hread
    rw [syncedRows] at hs
    split at hs
    · split at hs
      · rw [reworkedRows] at hs
        split at hs
        · cases hs
        · exact ownedRows_lists hrows hcard s hs
      · exact ownedRows_lists hrows hcard s hs
    · exact clearedRows_lists hrows hcard s hs
  next =>
    split at hs
    · cases hs
    · exact hrows s hs
  next => exact hrows s hs

/-- The column recorded for them is not that of tasks to be written anew. -/
theorem recordedList_ne {listId : Text} (hset : cfg.reworkList ≠ []) (hrows : ∀ r ∈ rows, r.idCardList ≠ cfg.reworkList)
    (hlist : listId ≠ cfg.reworkList) : recordedList v listId rows ≠ cfg.reworkList := by
  have hlisted := listedRows_lists (v := v) (P := fun l => l ≠ cfg.reworkList) hrows hlist
  rw [recordedList, readRow]
  split
  · cases hhead : (listedRows v listId rows).head? with
    | none => exact fun h => hset h.symm
    | some s => exact hlisted s (List.mem_of_mem_head? hhead)
  · exact fun h => hset h.symm

/-- Rows that are recorded elsewhere are not found in the column for tasks to be written anew. -/
theorem notFoundForRework (hset : cfg.reworkList ≠ []) (hrows : ∀ r ∈ rows, r.idCardList ≠ cfg.reworkList)
    (hlist : ∀ card, cardRead k v.getCard = .returns (.ok card) → card.idList ≠ cfg.reworkList) :
    ¬FoundForRework cfg k v rows := by
  rintro ⟨card, hread, hrecorded, -⟩
  exact recordedList_ne hset hrows (hlist card hread) hrecorded

/-- A visit that ends halfway leaves all rows, in no column it was not told of. -/
theorem VisitLeaves.kept {left : List IssueRow} (h : VisitLeaves cfg contractors k v rows left)
    (hset : cfg.reworkList ≠ []) (hrows : ∀ r ∈ rows, r.idCardList ≠ cfg.reworkList)
    (hlist : ∀ card, cardRead k v.getCard = .returns (.ok card) → card.idList ≠ cfg.reworkList) :
    left.map IssueRow.keys = rows.map IssueRow.keys ∧ ∀ s ∈ left, s.idCardList ≠ cfg.reworkList := by
  rw [VisitLeaves] at h
  split at h
  next card hread =>
    rcases h with rfl | ⟨hrecorded, -⟩
    · exact ⟨ownedRows_keys, ownedRows_lists (P := fun l => l ≠ cfg.reworkList) hrows (hlist card hread)⟩
    · exact absurd hrecorded (recordedList_ne hset hrows (hlist card hread))
  next =>
    subst h
    exact ⟨rfl, hrows⟩

end

/-! ### A pass -/

section
variable {cfg : Config} {env : PassEnv} {c : Checker}

/-- The rows without a card are still there, and nothing is about to remove them. -/
structure CardlessKept (cfg : Config) (c d : Checker) : Prop where
  keys : (d.sh.db.ofCard []).map IssueRow.keys = (c.sh.db.ofCard []).map IssueRow.keys
  lists : ∀ r ∈ d.sh.db.ofCard [], r.idCardList ≠ cfg.reworkList
  toDelete : [] ∉ d.vCardsToDelete

theorem CardlessKept.alone {d d' : Checker} (h : CardlessKept cfg c d) (h' : LeftAlone [] d d') :
    CardlessKept cfg c d' := by
  refine ⟨?_, ?_, fun hmem => h.toDelete (h'.toDelete.mp hmem)⟩
  · rw [h'.shared.ofCard, h.keys]
  · rw [h'.shared.ofCard]
    exact h.lists

theorem processCard_cardless {v : CardEnv} (hset : cfg.reworkList ≠ [])
    (hmissing : cardRead [] v.getCard ≠ .returns (.error .notFound404))
    (hcard : ∀ card, cardRead [] v.getCard = .returns (.ok card) →
      card.isClosed = false ∧ card.idList ≠ cfg.reworkList)
    {d : Checker} (hd : CardlessKept cfg c d) :
    wp (processCard cfg [] v) (fun _ => CardlessKept cfg c)
      (fun _ d' => (d'.sh.db.ofCard []).map IssueRow.keys = (c.sh.db.ofCard []).map IssueRow.keys ∧
        ∀ r ∈ d'.sh.db.ofCard [], r.idCardList ≠ cfg.reworkList) d := by
  have hlist : ∀ card, cardRead [] v.getCard = .returns (.ok card) → card.idList ≠ cfg.reworkList :=
    fun card hread => (hcard card hread).2
  have hlists := hd.lists
  apply wp_mono (@processCard_rows cfg [] v _ d rfl)
  · intro _ d' h
    refine ⟨?_, ?_, ?_⟩
    · rw [h.rows.ofCard, visitRows_keys hmissing (notFoundForRework hset hlists hlist), hd.keys]
    · rw [h.rows.ofCard]
      exact visitRows_lists (P := fun l => l ≠ cfg.reworkList) hlists hlist
    · intro hmem
      rw [h.toDelete] at hmem
      rcases hmem with hmem | ⟨-, card, hread, hclosed⟩
      · exact hd.toDelete hmem
      · rw [(hcard card hread).1] at hclosed
        cases hclosed
  · intro _ d' h
    obtain ⟨hkeys, hlists'⟩ := h.rows.ofCard.kept hset hlists hlist
    exact ⟨hkeys.trans hd.keys, hlists'⟩

/-- A pass, completed or not, leaves the rows without a card in the table. -/
theorem checkTheList_cardless (hset : cfg.reworkList ≠ []) (hspares : env.SparesCardless cfg c.sh.db)
    (hnone : c.vCardsToDelete = []) (hlists : ∀ r ∈ c.sh.db.ofCard [], r.idCardList ≠ cfg.reworkList) :
    wp (checkTheList cfg env)
      (fun _ d => (d.sh.db.ofCard []).map IssueRow.keys = (c.sh.db.ofCard []).map IssueRow.keys ∧
        ∀ r ∈ d.sh.db.ofCard [], r.idCardList ≠ cfg.reworkList)
      (fun _ d => (d.sh.db.ofCard []).map IssueRow.keys = (c.sh.db.ofCard []).map IssueRow.keys ∧
        ∀ r ∈ d.sh.db.ofCard [], r.idCardList ≠ cfg.reworkList) c := by
  have hstart : CardlessKept cfg c c := ⟨rfl, hlists, by rw [hnone]; exact List.not_mem_nil⟩
  have hbegin (c₁ : Checker) (h : Begun env c c₁) : CardlessKept cfg c c₁ := hstart.alone h.leftAlone
  apply wp_checkTheList
  · intro c₁ hbegun _
    have hloop : wp (processEveryCard cfg env) (fun _ => CardlessKept cfg c)
        (fun _ d => (d.sh.db.ofCard []).map IssueRow.keys = (c.sh.db.ofCard []).map IssueRow.keys ∧
          ∀ r ∈ d.sh.db.ofCard [], r.idCardList ≠ cfg.reworkList) c₁ := by
      apply wp_processEveryCard
      · intro x hx d hd
        rw [hbegun.ids] at hx
        by_cases hk : x.1 = []
        · obtain ⟨hmissing, hcard⟩ := hspares x hx hk
          have hvisit := processCard_cardless hset hmissing hcard hd
          rw [← hk] at hvisit ⊢
          exact hvisit
        · apply wp_mono ((processCard_alone (k := []) fun h => hk h.symm) d)
          · exact fun _ d' h => hd.alone h
          · exact fun _ d' h => ⟨(hd.alone h).keys, (hd.alone h).lists⟩
      · exact hbegin c₁ hbegun
    rw [wp_bind]
    apply wp_mono hloop
    · intro _ c₂ h₂
      apply wp_mono (deleteCards_sweeps [] c₂)
      · intro _ c₃ h₃
        have hsame := (h₃.1.spared h₂.toDelete).ofCard
        rw [hsame]
        exact ⟨h₂.keys, h₂.lists⟩
      · exact fun _ _ h => h.elim
    · exact fun _ _ h => h
  · exact fun c₁ h _ _ => ⟨(hbegin c₁ h).keys, (hbegin c₁ h).lists⟩
  · exact fun _ c₁ h _ => ⟨(hbegin c₁ h).keys, (hbegin c₁ h).lists⟩

end

/-! ### Runs of the two programs -/

/-- A call of `create_new_issue`, with any outcome, or a pass, with any answers but those that
remove the rows without a card. Trello gives a new card an id of its own. -/
inductive FilingStep (cfg : Config) : Db → Db → Prop
  | filed {c : Chat} {env : CreateIssueEnv} {message : Message} (hnew : NewCard c.sh.db (createdCard env)) :
    FilingStep cfg c.sh.db (final (createNewIssue cfg env message) c).sh.db
  | passed {c : Checker} {env : PassEnv} (hdaemon : Daemon cfg c) (hspares : env.SparesCardless cfg c.sh.db) :
    FilingStep cfg c.sh.db (final (checkTheList cfg env) c).sh.db

/-- What both programs keep. A row has a number of its own and, but for the empty id, a card of
its own; no row without a card is recorded in the column for tasks to be written anew. -/
structure CardlessSafe (cfg : Config) (db : Db) : Prop where
  lists : ∀ r ∈ db.ofCard [], r.idCardList ≠ cfg.reworkList
  alone : ∀ r ∈ db.issues, r.idCard ≠ [] → r.idCard ≠ of "1" ∧ db.ofCard r.idCard = [r]
  distinct : (db.issues.map IssueRow.id).Nodup
  numbered : ∀ r ∈ db.issues, r.id < db.nextIssueId

/-- The rows without a card are among those there are later, in the same order. -/
def StillThere (db db' : Db) : Prop :=
  (db.ofCard []).map IssueRow.keys <+: (db'.ofCard []).map IssueRow.keys

theorem StillThere.of_eq {db db' : Db}
    (h : (db'.ofCard []).map IssueRow.keys = (db.ofCard []).map IssueRow.keys) : StillThere db db' :=
  ⟨[], (List.append_nil _).trans h.symm⟩

theorem StillThere.mem {db db' : Db} (h : StillThere db db') {r : IssueRow} (hr : r ∈ db.issues)
    (hempty : r.idCard = []) : r.keys ∈ db'.issues.map IssueRow.keys := by
  have hmem : r.keys ∈ (db.ofCard []).map IssueRow.keys :=
    List.mem_map_of_mem (Keyed.mem_rows.mpr ⟨hr, hempty⟩)
  obtain ⟨s, hs, hsame⟩ := List.mem_map.mp (h.subset hmem)
  exact List.mem_map.mpr ⟨s, (Keyed.mem_rows.mp hs).1, hsame⟩

section
variable {cfg : Config} {db db' : Db}

theorem ofCard_keys (k : Text) :
    (db.ofCard k).map IssueRow.keys = (db.issues.map IssueRow.keys).filter fun p => p.2 = k := by
  rw [List.filter_map]
  rfl

theorem CardlessSafe.of_empty (h : db.issues = []) : CardlessSafe cfg db := by
  have hnone (k : Text) : db.ofCard k = [] := by rw [Db.ofCard, h, Keyed.rows, List.filter_nil]
  constructor
  · intro r hr
    rw [hnone] at hr
    cases hr
  · intro r hr
    rw [h] at hr
    cases hr
  · rw [h]
    exact List.nodup_nil
  · intro r hr
    rw [h] at hr
    cases hr

/-- A task is filed under the next number. -/
theorem CardlessSafe.filed {task : NewTask} (h : CardlessSafe cfg db) (hset : cfg.reworkList ≠ [])
    (hnew : NewCard db task.idCard)
    (hrow : db'.issues = db.issues ++ [{rowOfTask task with id := db.nextIssueId}])
    (hnext : db'.nextIssueId = db.nextIssueId + 1) : CardlessSafe cfg db' ∧ StillThere db db' := by
  have hofCard : db'.ofCard [] = db.ofCard [] ++
      Keyed.rows IssueRow.idCard [] [{rowOfTask task with id := db.nextIssueId}] := by
    rw [Db.ofCard, hrow, Keyed.rows_append]
    rfl
  refine ⟨⟨?_, alone_filed hnew hrow h.alone, ?_, ?_⟩, ?_⟩
  · intro r hr
    rw [hofCard, List.mem_append] at hr
    rcases hr with hr | hr
    · exact h.lists r hr
    · rw [List.mem_singleton.mp (Keyed.mem_rows.mp hr).1]
      exact hset.symm
  · rw [hrow, List.map_append, List.map_singleton, List.nodup_append]
    refine ⟨h.distinct, List.nodup_singleton _, ?_⟩
    intro n hn m hm
    obtain ⟨r, hr, rfl⟩ := List.mem_map.mp hn
    rw [List.mem_singleton.mp hm]
    exact Int.ne_of_lt (h.numbered r hr)
  · intro r hr
    rw [hrow, List.mem_append, List.mem_singleton] at hr
    rw [hnext]
    rcases hr with hr | rfl
    · have := h.numbered r hr
      omega
    · show db.nextIssueId < _
      omega
  · rw [StillThere, hofCard, List.map_append]
    exact List.prefix_append _ _

/-- A table that lost rows, none of them without a card. -/
theorem CardlessSafe.thinned (h : CardlessSafe cfg db)
    (hkeys : (db'.issues.map IssueRow.keys).Sublist (db.issues.map IssueRow.keys))
    (hnext : db'.nextIssueId = db.nextIssueId)
    (hlists : ∀ r ∈ db'.ofCard [], r.idCardList ≠ cfg.reworkList) : CardlessSafe cfg db' := by
  have hfrom {r : IssueRow} (hr : r ∈ db'.issues) : ∃ s ∈ db.issues, s.keys = r.keys :=
    List.mem_map.mp (hkeys.subset (List.mem_map_of_mem hr))
  refine ⟨hlists, ?_, ?_, ?_⟩
  · intro r hr hne
    obtain ⟨s, hs, hsame⟩ := hfrom hr
    have hid : s.idCard = r.idCard := congrArg Prod.snd hsame
    rw [← hid] at hne
    obtain ⟨hone, hrows⟩ := h.alone s hs hne
    have hsub : ((db'.ofCard r.idCard).map IssueRow.keys).Sublist [s.keys] := by
      have hall := hkeys.filter fun p => decide (p.2 = r.idCard)
      rw [← ofCard_keys, ← ofCard_keys, ← hid, hrows] at hall
      rw [← hid]
      exact hall
    refine ⟨hid ▸ hone, ?_⟩
    have hlength : (db'.ofCard r.idCard).length ≤ 1 := by
      have hle := hsub.length_le
      rwa [List.length_map] at hle
    have hmem : r ∈ db'.ofCard r.idCard := Keyed.mem_rows_self hr
    obtain ⟨s', hs'⟩ := List.length_eq_one_iff.mp (Nat.le_antisymm hlength (List.length_pos_of_mem hmem))
    rw [hs'] at hmem ⊢
    rw [List.mem_singleton.mp hmem]
  · have hids := hkeys.map Prod.fst
    rw [List.map_map, List.map_map] at hids
    exact h.distinct.sublist hids
  · intro r hr
    obtain ⟨s, hs, hsame⟩ := hfrom hr
    have hid : s.id = r.id := congrArg Prod.fst hsame
    rw [hnext, ← hid]
    exact h.numbered s hs

/-- One step: the invariant, and the rows without a card. -/
theorem FilingStep.keeps (hstep : FilingStep cfg db db') (hset : cfg.reworkList ≠ [])
    (h : CardlessSafe cfg db) : CardlessSafe cfg db' ∧ StillThere db db' := by
  cases hstep with
  | @filed c env message hnew =>
    have hfiled : Filed env c (final (createNewIssue cfg env message) c) :=
      of_wp (P := fun _ => Filed env c) (createNewIssue_filed cfg env message c)
    rcases hfiled.table with hsame | ⟨task, hid, hrow⟩
    · have hissues := congrArg Prod.fst hsame
      have hnext := congrArg Prod.snd hsame
      have hrows (k : Text) : (final (createNewIssue cfg env message) c).sh.db.ofCard k = c.sh.db.ofCard k :=
        congrArg (Keyed.rows IssueRow.idCard k) hissues
      refine ⟨h.thinned (congrArg (List.map IssueRow.keys) hissues ▸ List.Sublist.refl _) hnext ?_, .of_eq ?_⟩
      · rw [hrows]
        exact h.lists
      · rw [hrows]
    · rw [← hid] at hnew
      exact h.filed hset hnew (congrArg Prod.fst hrow) (congrArg Prod.snd hrow)
  | @passed c env hdaemon hspares =>
    have hthin : Thinned c.sh (final (checkTheList cfg env) c).sh :=
      of_wp (P := fun _ (d : Checker) => Thinned c.sh d.sh) (checkTheList_thins c)
    obtain ⟨hkeys, hlists⟩ := of_wp
      (P := fun _ (d : Checker) => (d.sh.db.ofCard []).map IssueRow.keys = (c.sh.db.ofCard []).map IssueRow.keys ∧
        ∀ r ∈ d.sh.db.ofCard [], r.idCardList ≠ cfg.reworkList)
      (checkTheList_cardless hset hspares hdaemon.nothingToDelete h.lists)
    exact ⟨h.thinned hthin.keys hthin.next hlists, .of_eq hkeys⟩

theorem FilingStep.run_keeps (hrun : Relation.ReflTransGen (FilingStep cfg) db db')
    (hset : cfg.reworkList ≠ []) (h : CardlessSafe cfg db) : CardlessSafe cfg db' ∧ StillThere db db' := by
  induction hrun with
  | refl => exact ⟨h, List.prefix_refl _⟩
  | tail _ hstep ih =>
    obtain ⟨hsafe, hthere⟩ := ih
    obtain ⟨hsafe', hthere'⟩ := hstep.keeps hset hsafe
    exact ⟨hsafe', hthere.trans hthere'⟩

/-- **An issue without a card is never removed by a pass**, and a row that is removed was the only
one of its card. -/
theorem cardless_never_removed (hset : cfg.reworkList ≠ []) {db₀ : Db} (hempty : db₀.issues = [])
    (hrun : Relation.ReflTransGen (FilingStep cfg) db₀ db) :
    (db.issues.map IssueRow.id).Nodup ∧
    (∀ r ∈ db.issues, r.idCard = [] → ∀ db', Relation.ReflTransGen (FilingStep cfg) db db' →
      r.keys ∈ db'.issues.map IssueRow.keys) ∧
    ∀ db', FilingStep cfg db db' → ∀ r ∈ db.issues, r.keys ∉ db'.issues.map IssueRow.keys →
      r.idCard ≠ [] ∧ db.ofCard r.idCard = [r] := by
  have hsafe := (FilingStep.run_keeps hrun hset (.of_empty hempty)).1
  refine ⟨hsafe.distinct, ?_, ?_⟩
  · intro r hr hcard db' hrun'
    exact (FilingStep.run_keeps hrun' hset hsafe).2.mem hr hcard
  · intro db' hstep r hr hgone
    have hcard : r.idCard ≠ [] := fun hcard => hgone ((hstep.keeps hset hsafe).2.mem hr hcard)
    exact ⟨hcard, (hsafe.alone r hr hcard).2⟩

end

/-- Ivan's task, for which Trello creates no card. -/
def askedByIvan : Message := {messageId := 1, from_ := ⟨5, [], of "Ivan"⟩, chat := ⟨5, of "ivan"⟩}

def uncarded : Chat :=
  final (createNewIssue {reworkList := of "rework"} {CreateIssueEnv.calm with newCard := .returns .failed}
      askedByIvan)
    ⟨{ chatUserTgId := 5, chatUserTgName := of "ivan", chatUserFirstName := of "Ivan"
       jiraTask := {type := of "BIMTASK", subj := of "Вид"} }, {}⟩

theorem uncarded_keys : uncarded.sh.db.issues.map IssueRow.keys = [(300, [])] := by decide +kernel

theorem uncarded_filed : FilingStep {reworkList := of "rework"} {} uncarded.sh.db :=
  FilingStep.filed (c := ⟨_, {}⟩) (.inl rfl)

/-- A pass after which every request to Trello was answered by `reply`. -/
def passOver (reply : CurlReply) : Checker :=
  final (checkTheList {reworkList := of "rework"} (.calm fun _ => .returns reply)) {sh := uncarded.sh}

/-- The task without a card outlives a pass in which no request is answered. -/
theorem cardless_never_removed_failed :
    (300, []) ∈ (passOver .failed).sh.db.issues.map IssueRow.keys := by
  have hstep : FilingStep {reworkList := of "rework"} uncarded.sh.db (passOver .failed).sh.db := by
    apply FilingStep.passed (.start uncarded.sh)
    intro x _ hx
    exact ⟨fun h => (by cases h), fun card h => (by cases h)⟩
  obtain ⟨-, hstays, -⟩ := @cardless_never_removed {reworkList := of "rework"} _ (by decide) _ rfl
    (.single uncarded_filed)
  have hmem : (300, []) ∈ uncarded.sh.db.issues.map IssueRow.keys := by
    rw [uncarded_keys]
    exact List.mem_singleton_self _
  obtain ⟨r, hr, hkeys⟩ := List.mem_map.mp hmem
  rw [← hkeys]
  exact hstays r hr (congrArg Prod.snd hkeys) _ (.single hstep)

/-- To the request with the empty id Trello answers 404: the task is gone. -/
theorem cardless_removed :
    (300, []) ∈ uncarded.sh.db.issues.map IssueRow.keys ∧
      Daemon {reworkList := of "rework"} {sh := uncarded.sh} ∧
      (passOver (.answered 404 none)).sh.db.issues = [] :=
  ⟨by decide +kernel, .start _, by decide +kernel⟩

end Chanserv
