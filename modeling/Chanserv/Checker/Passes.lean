import Chanserv.Checker.Visits

/-! What a pass makes of one card.

A pass reads the ids of all cards, visits one card after another, and deletes
the rows of the cards found closed. A card with one row is visited once, and no
other visit touches its row: `checkTheList_rows` says what a completed pass
leaves of it. The card ids themselves are never written (`Thinned`). -/
namespace Chanserv
open Text Program

/-- The ids of the cards: a row marked 1 has none. -/
def Db.cardIds (db : Db) : List Text := (db.issues.map IssueRow.idCard).filter fun id => id ≠ of "1"

/-- The ids a pass reads. -/
def PassEnv.ids (env : PassEnv) (db : Db) : List Text := if env.selectIds then db.cardIds else []

/-- The answers given while a card is visited. -/
def PassEnv.visit (env : PassEnv) (db : Db) (k : Text) : CardEnv := env.card (db.cardIds.idxOf k)

namespace Db
variable {db : Db} {k : Text}

theorem mem_cardIds : k ∈ db.cardIds ↔ k ≠ of "1" ∧ db.ofCard k ≠ [] := by
  constructor
  · intro hmem
    obtain ⟨hid, hk⟩ := List.mem_filter.mp hmem
    obtain ⟨s, hs, hsk⟩ := List.mem_map.mp hid
    exact ⟨of_decide_eq_true hk, List.ne_nil_of_mem (Keyed.mem_rows.mpr ⟨hs, hsk⟩)⟩
  · rintro ⟨hk, hrows⟩
    obtain ⟨s, hs⟩ := List.exists_mem_of_ne_nil _ hrows
    obtain ⟨hs, hsk⟩ := Keyed.mem_rows.mp hs
    exact List.mem_filter.mpr ⟨List.mem_map.mpr ⟨s, hs, hsk⟩, decide_eq_true hk⟩

/-- A card with one row is visited once. -/
theorem cardIds_split {r : IssueRow} (hk : k ≠ of "1") (h : db.ofCard k = [r]) :
    ∃ before after, db.cardIds = before ++ k :: after ∧ k ∉ before ∧ k ∉ after := by
  obtain ⟨before, after, ht, hr, hbefore, hafter⟩ := Keyed.split_of_rows h
  have hother {t : List IssueRow} (ht : ∀ s ∈ t, s.idCard ≠ k) :
      k ∉ (t.map IssueRow.idCard).filter fun id => id ≠ of "1" := by
    intro hmem
    obtain ⟨s, hs, hsk⟩ := List.mem_map.mp (List.mem_filter.mp hmem).1
    exact ht s hs hsk
  refine ⟨_, _, ?_, hother hbefore, hother hafter⟩
  have hkept : (fun id => decide (id ≠ of "1")) k = true := decide_eq_true hk
  rw [cardIds, ht, List.map_append, List.map_cons, hr, List.filter_append,
    List.filter_cons_of_pos (p := fun id => decide (id ≠ of "1")) hkept]

end Db

/-! ### What any pass keeps -/

/-- The table only loses rows, and what is left keeps its ids. -/
structure Thinned (s s' : Shared) : Prop where
  keys : (s'.db.issues.map IssueRow.keys).Sublist (s.db.issues.map IssueRow.keys)
  next : s'.db.nextIssueId = s.db.nextIssueId
  trace : s.trace <+: s'.trace

instance : Std.Refl Thinned := ⟨fun s => ⟨List.Sublist.refl _, rfl, s.trace.prefix_refl⟩⟩

instance : IsTrans Shared Thinned :=
  ⟨fun _ _ _ h h' => ⟨h'.keys.trans h.keys, h'.next.trans h.next, h.trace.trans h'.trace⟩⟩

theorem Thinned.admits (P : Contractor → Prop) (id : Text) : Admits P Thinned id where
  log s e _ := ⟨List.Sublist.refl _, rfl, s.trace.prefix_append [e]⟩
  update s f hf := by
    refine ⟨?_, rfl, s.trace.prefix_refl⟩
    have hkeys : (s.db.updateIssues id f).issues.map IssueRow.keys = s.db.issues.map IssueRow.keys := by
      rw [Db.updateIssues, List.map_map]
      apply List.map_congr_left
      intro r _
      rw [Function.comp]
      split
      · exact hf.keys r
      · rfl
    exact hkeys ▸ List.Sublist.refl _
  delete s := ⟨(List.filter_sublist ..).map _, rfl, s.trace.prefix_refl⟩

/-- A relation between what the processes share, for the checker. -/
abbrev OnShared (R : Shared → Shared → Prop) (c c' : Checker) : Prop := R c.sh c'.sh

section
variable {P : Contractor → Prop} {R : Shared → Shared → Prop}

instance [Std.Refl R] : Std.Refl (OnShared R) := ⟨fun c => Std.Refl.refl c.sh⟩

instance [IsTrans Shared R] : IsTrans Checker (OnShared R) :=
  ⟨fun a b c => IsTrans.trans a.sh b.sh c.sh⟩

theorem within_serviceChecker {α : Type} {m : ServiceM α} (h : Within R m) :
    Within (OnShared R) (serviceChecker m) :=
  h.zoom fun _ _ hs => hs

variable [Std.Refl R]

theorem within_lists {f : Checker → Checker} (hf : ∀ c, (f c).sh = c.sh) :
    Within (OnShared R) (modify f : CheckerM Unit) := by
  apply Within.writes
  intro c
  rw [OnShared, hf c]
  exact Std.Refl.refl c.sh

variable [IsTrans Shared R] {cfg : Config} {env : PassEnv}

theorem Admits.checksBootstrap (h : Admits P R []) : Within (OnShared R) (checksBootstrap cfg env) := by
  apply Within.bind
  · exact within_lists fun _ => rfl
  · intro _
    apply Within.bind
    · apply within_serviceChecker
      exact (h.quiet rfl).bind fun _ => Within.reads.bind fun _ => .done _
    · intro ids
      apply Within.bind
      · exact within_lists fun _ => rfl
      · refine fun _ => Within.reads.bind fun c => ?_
        split
        · refine Within.bind (.guarded fun _ => ?_) fun _ => .done _
          apply within_serviceChecker
          exact (h.quiet rfl).bind fun _ => .done _
        · exact .done _

/-- The contractors whose columns the answers of a pass name. -/
def PassEnv.Names (env : PassEnv) (P : Contractor → Prop) : Prop :=
  ∀ k i card c, cardRead k (env.card i).getCard = .returns (.ok card) → c.trelloList = card.idList → P c

theorem Admits.processEveryCard (h : ∀ id, Admits P R id) (hP : env.Names P) :
    Within (OnShared R) (processEveryCard cfg env) := by
  refine Within.reads.bind fun c => .forEach fun x _ => ?_
  exact (h x.1).processCard (fun _ _ hs => hs) (fun c => Std.Refl.refl c.sh) (hP x.1 x.2)

theorem Admits.deleteCards (h : ∀ id, Admits P R id) : Within (OnShared R) (deleteCards env) := by
  apply Within.reads.bind
  intro c
  apply Within.bind
  · apply within_serviceChecker
    exact Within.forEach fun x _ => (h x.1).deletes.bind fun _ => .done _
  · intro _
    apply Within.bind
    · exact within_lists fun _ => rfl
    · exact fun _ => (within_serviceChecker ((h []).quiet rfl)).bind fun _ => .done _

/-- A pass stays within what allows the visits to all cards. -/
theorem Admits.checkTheList (h : ∀ id, Admits P R id) (hP : env.Names P) :
    Within (OnShared R) (checkTheList cfg env) :=
  (Admits.checksBootstrap (h [])).bind fun _ => .guarded fun _ =>
    (Admits.processEveryCard h hP).bind fun _ => Admits.deleteCards h

end

theorem processCard_thins {cfg : Config} {k : Text} {env : CardEnv} :
    Within (OnShared Thinned) (processCard cfg k env) := by
  apply (Thinned.admits (fun _ => True) k).processCard
  · exact fun _ _ hs => hs
  · exact fun c => Std.Refl.refl c.sh
  · exact fun _ _ _ _ => trivial

theorem checkTheList_thins {cfg : Config} {env : PassEnv} :
    Within (OnShared Thinned) (checkTheList cfg env) :=
  Admits.checkTheList (P := fun _ => True) (Thinned.admits _) fun _ _ _ _ _ _ => trivial

/-! ### Before the first card and after the last -/

/-- Nothing is written, and nobody but support hears anything. -/
structure Idle (s s' : Shared) : Prop where
  db : s'.db = s.db
  contractors : s'.vContractors = s.vContractors
  unseen : ∃ es, s'.trace = s.trace ++ es ∧ ∀ e ∈ es, e.card = none ∧ e.isSeen = false

theorem Idle.log {s s' : Shared} (h : Idle s s') {e : Effect} (hcard : e.card = none)
    (hseen : e.isSeen = false) : Idle s (s'.log e) := by
  obtain ⟨es, hs, hes⟩ := h.unseen
  refine ⟨h.db, h.contractors, es ++ [e], ?_, ?_⟩
  · rw [Shared.log, hs, List.append_assoc]
  · intro e' he'
    rcases List.mem_append.mp he' with he' | he'
    · exact hes e' he'
    · rw [List.mem_singleton.mp he']
      exact ⟨hcard, hseen⟩

theorem Idle.refl (s : Shared) : Idle s s :=
  ⟨rfl, rfl, [], (List.append_nil _).symm, fun _ h => absurd h List.not_mem_nil⟩

theorem Idle.spared {s s' : Shared} (h : Idle s s') (k : Text) : Spared k s s' := by
  obtain ⟨es, hs, hes⟩ := h.unseen
  refine ⟨congrArg (Db.ofCard · k) h.db, h.contractors, es, hs, ?_⟩
  intro e he hk
  rw [(hes e he).1] at hk
  cases hk

theorem seen_append {s s' : Shared} {es : List Effect} (hs : s'.trace = s.trace ++ es) :
    s'.seen = s.seen ++ es.filter Effect.isSeen := by
  rw [Shared.seen, Shared.seen, hs, List.filter_append]

theorem seen_of_unseen {s s' : Shared} {es : List Effect} (hs : s'.trace = s.trace ++ es)
    (hes : ∀ e ∈ es, e.isSeen = false) : s'.seen = s.seen := by
  have hnone : es.filter Effect.isSeen = [] := by
    rw [List.filter_eq_nil_iff]
    intro e he
    rw [hes e he]
    exact Bool.false_ne_true
  rw [seen_append hs, hnone, List.append_nil]

theorem Idle.seen {s s' : Shared} (h : Idle s s') : s'.seen = s.seen := by
  obtain ⟨es, hs, hes⟩ := h.unseen
  exact seen_of_unseen hs fun e he => (hes e he).2

section
variable {cfg : Config} {env : PassEnv} {k : Text} {c : Checker}

/-- The state in which the cards are visited. -/
structure Begun (env : PassEnv) (c c₁ : Checker) : Prop where
  idle : Idle c.sh c₁.sh
  toDelete : c₁.vCardsToDelete = c.vCardsToDelete
  ids : c₁.vIdCards = env.ids c.sh.db

/-- The notice that there are no cards can be sent, if it is. -/
def PassEnv.NoticeSafe (env : PassEnv) (db : Db) : Prop :=
  env.ids db = [] → 29 < env.uptimeMinutes ∧ env.uptimeMinutes % 30 = 0 → env.notice.Normal

theorem checksBootstrap_begins :
    wp (checksBootstrap cfg env)
      (fun some_ c₁ => Begun env c c₁ ∧ (some_ = true ↔ env.ids c.sh.db ≠ []) ∧ env.NoticeSafe c.sh.db)
      (fun _ c₁ => Begun env c c₁ ∧ ¬env.NoticeSafe c.sh.db) c := by
  have hread : Idle c.sh (c.sh.log .selectRows) := (Idle.refl c.sh).log rfl rfl
  have hids : (if env.selectIds then (c.sh.db.issues.map IssueRow.idCard) else []).filter
      (fun id => id ≠ of "1") = env.ids c.sh.db := by
    rw [PassEnv.ids]
    split <;> rfl
  have hbegun : Begun env c {c with sh := c.sh.log .selectRows, vIdCards := env.ids c.sh.db} :=
    ⟨hread, rfl, rfl⟩
  rw [checksBootstrap, wp_bind, wp_modify, wp_bind, wp_serviceChecker]
  have hselect (rows : List Text) (hrows : rows = if env.selectIds then c.sh.db.issues.map IssueRow.idCard else []) :
      wp (do
          modify fun c : Checker => {c with vIdCards := rows.filter fun id => id ≠ of "1"}
          let c ← get
          if c.vIdCards = [] then do
            guarded (29 < env.uptimeMinutes ∧ env.uptimeMinutes % 30 = 0) <| serviceChecker do
              let _ ← call (.sendMessage (.named cfg.supportTgId) (of "ListChecker's uptime is " ++
                itoa env.uptimeMinutes ++ of "min: Запрос задач из БД вернул пустой результат. " ++ env.errors))
                env.notice
            pure false
          else pure true : CheckerM Bool)
        (fun some_ c₁ => Begun env c c₁ ∧ (some_ = true ↔ env.ids c.sh.db ≠ []) ∧ env.NoticeSafe c.sh.db)
        (fun _ c₁ => Begun env c c₁ ∧ ¬env.NoticeSafe c.sh.db) {c with sh := c.sh.log .selectRows, vIdCards := []} := by
    rw [wp_bind, wp_modify, wp_bind, wp_get, hrows, hids, wp_ite]
    constructor
    · intro hnone
      have hnone : env.ids c.sh.db = [] := hnone
      have hfalse : false = true ↔ env.ids c.sh.db ≠ [] := by simp [hnone]
      rw [wp_bind, wp_guarded]
      constructor
      · intro hnow
        have hlogged : Begun env c {c with
            sh := (c.sh.log .selectRows).log (.sendMessage (.named cfg.supportTgId)
              (of "ListChecker's uptime is " ++ itoa env.uptimeMinutes ++
                of "min: Запрос задач из БД вернул пустой результат. " ++ env.errors))
            vIdCards := env.ids c.sh.db} := ⟨hread.log rfl rfl, rfl, rfl⟩
        rw [wp_serviceChecker, wp_bind, wp_call]
        constructor
        · intro _ hsent
          exact ⟨hlogged, hfalse, fun _ _ => by rw [hsent]; trivial⟩
        · intro x hthrows
          exact ⟨hlogged, fun hsafe => (hsafe hnone hnow).not_throws hthrows⟩
      · intro hlater
        exact ⟨hbegun, hfalse, fun _ hnow => absurd hnow hlater⟩
    · intro hsome
      exact ⟨hbegun, ⟨fun _ => hsome, fun _ => rfl⟩, fun hnone => absurd hnone hsome⟩
  rw [wp_select]
  refine ⟨fun hok => hselect _ ?_, fun hfail => hselect _ ?_, fun _ h => by cases h⟩
  · rw [if_pos (Reply.returns.inj hok)]
    rfl
  · rw [if_neg (by rw [Reply.returns.inj hfail]; exact Bool.false_ne_true)]

/-- A pass, from the state in which the cards are visited. -/
theorem wp_checkTheList {Q : Unit → Checker → Prop} {E : Stop → Checker → Prop}
    (hbegun : ∀ c₁, Begun env c c₁ → env.ids c.sh.db ≠ [] →
      wp (do processEveryCard cfg env; deleteCards env) Q E c₁)
    (hnone : ∀ c₁, Begun env c c₁ → env.ids c.sh.db = [] → env.NoticeSafe c.sh.db → Q () c₁)
    (hfail : ∀ e c₁, Begun env c c₁ → ¬env.NoticeSafe c.sh.db → E e c₁) :
    wp (checkTheList cfg env) Q E c := by
  rw [checkTheList, wp_bind]
  apply wp_mono checksBootstrap_begins
  · intro some_ c₁ h
    rw [wp_guarded]
    exact ⟨fun hsome => hbegun c₁ h.1 (h.2.1.mp hsome),
      fun hno => hnone c₁ h.1 (not_not.mp fun hids => hno (h.2.1.mpr hids)) h.2.2⟩
  · exact fun e c₁ h => hfail e c₁ h.1 h.2

/-- What every visit keeps, all visits keep. -/
theorem wp_processEveryCard {I : Checker → Prop} {E : Stop → Checker → Prop}
    (hvisit : ∀ x ∈ c.vIdCards.zipIdx, ∀ d, I d → wp (processCard cfg x.1 (env.card x.2)) (fun _ => I) E d)
    (hstart : I c) : wp (processEveryCard cfg env) (fun _ => I) E c := by
  rw [processEveryCard, wp_bind, wp_get]
  exact wp_forEach hvisit hstart

/-- What the last part of a pass does to the rows of a card. -/
structure Swept (env : PassEnv) (k : Text) (toDelete : List Text) (s s' : Shared) : Prop where
  spared : k ∉ toDelete → Spared k s s'
  rows : s'.db.ofCard k = s.db.ofCard k ∨ s'.db.ofCard k = []
  deleted : k ∈ toDelete → (∀ i, env.deleteClosed i = true) → s'.db.ofCard k = []
  contractors : s'.vContractors = s.vContractors
  unseen : ∃ es, s'.trace = s.trace ++ es ∧ ∀ e ∈ es, e.isSeen = false

theorem sweeps_cons {id : Text} {i : Nat} {ids : List Text} {s s' : Shared}
    (h : Swept env k ids
      {s.log (.deleteIssue id) with
        db := if env.deleteClosed i then s.db.deleteIssue id else s.db} s') :
    Swept env k (id :: ids) s s' := by
  have hadmits (hk : k ≠ id) : Spared k s {s.log (.deleteIssue id) with
      db := if env.deleteClosed i then s.db.deleteIssue id else s.db} := by
    have hlog := (Spared.admits (P := fun _ => True) hk).log s (e := .deleteIssue id) fun _ h => (Option.some.inj h).symm
    refine ⟨?_, rfl, hlog.quiet⟩
    show (if env.deleteClosed i then s.db.deleteIssue id else s.db).ofCard k = _
    split
    · exact Db.ofCard_deleteIssue_ne hk s.db
    · rfl
  have hrows : (if env.deleteClosed i then s.db.deleteIssue id else s.db).ofCard k = s.db.ofCard k ∨
      (if env.deleteClosed i then s.db.deleteIssue id else s.db).ofCard k = [] := by
    by_cases hk : k = id
    · split
      · exact .inr (hk ▸ Db.ofCard_deleteIssue s.db k)
      · exact .inl rfl
    · exact .inl (hadmits hk).ofCard
  have hgone (hnone : (if env.deleteClosed i then s.db.deleteIssue id else s.db).ofCard k = []) :
      s'.db.ofCard k = [] := h.rows.elim (fun hsame => hsame.trans hnone) fun hnil => hnil
  obtain ⟨es, hs, hes⟩ := h.unseen
  constructor
  · intro hk
    rw [List.mem_cons, not_or] at hk
    exact IsTrans.trans _ _ _ (hadmits hk.1) (h.spared hk.2)
  · rcases hrows with hsame | hnil
    · exact h.rows.imp_left fun hsame' => hsame'.trans hsame
    · exact .inr (hgone hnil)
  · intro hk hall
    rw [List.mem_cons] at hk
    rcases hk with rfl | hk
    · apply hgone
      rw [if_pos (hall i)]
      exact Db.ofCard_deleteIssue s.db k
    · exact h.deleted hk hall
  · exact h.contractors
  · refine ⟨.deleteIssue id :: es, ?_, List.forall_mem_cons.mpr ⟨rfl, hes⟩⟩
    rw [hs, Shared.log, List.append_assoc]
    rfl

theorem deleteClosed_sweeps (cards : List (Text × Nat)) (s : Shared) :
    wp (forEach cards fun (cardId, i) => do
        let _ ← deleteIssueFromDb cardId (.returns (env.deleteClosed i)))
      (fun _ s' => Swept env k (cards.map Prod.fst) s s') (fun _ _ => False) s := by
  induction cards generalizing s with
  | nil =>
    exact ⟨fun _ => Std.Refl.refl s, .inl rfl, fun h => absurd h List.not_mem_nil, rfl,
      [], (List.append_nil _).symm, fun _ h => absurd h List.not_mem_nil⟩
  | cons x cards ih =>
    rw [forEach, wp_bind, wp_bind, deleteIssueFromDb, wp_sql_returns, wp_pure]
    exact wp_mono (ih _) (fun _ _ h => sweeps_cons h) fun _ _ h => h

theorem deleteCards_sweeps (k : Text) (d : Checker) :
    wp (deleteCards env) (fun _ d' => Swept env k d.vCardsToDelete d.sh d'.sh ∧ d'.vCardsToDelete = [])
      (fun _ _ => False) d := by
  rw [deleteCards, wp_bind, wp_get, wp_bind, wp_serviceChecker]
  apply wp_mono (deleteClosed_sweeps (k := k) d.vCardsToDelete.zipIdx d.sh)
  · intro _ s' h
    rw [wp_bind, wp_modify, wp_bind, wp_serviceChecker, wp_call_returns]
    rw [List.zipIdx_map_fst] at h
    obtain ⟨es, hs, hes⟩ := h.unseen
    refine ⟨⟨fun hk => ?_, h.rows, h.deleted, h.contractors, es ++ [.commit], ?_, ?_⟩, rfl⟩
    · have hcommit : Idle s' (s'.log .commit) := (Idle.refl s').log rfl rfl
      exact IsTrans.trans _ _ _ (h.spared hk) (hcommit.spared k)
    · rw [Shared.log, hs, List.append_assoc]
    · intro e he
      rcases List.mem_append.mp he with he | he
      · exact hes e he
      · rw [List.mem_singleton.mp he]
        rfl
  · exact fun _ _ h => h

/-! ### A completed pass -/

/-- What a completed pass did to a card with one row: what the visit did, and the deletion of a
closed card. -/
structure Passed (cfg : Config) (env : PassEnv) (k : Text) (r : IssueRow) (c c' : Checker) : Prop where
  safe : VisitSafe cfg c.sh.vContractors k (env.visit c.sh.db k) [r]
  kept : ¬ReportedClosed k (env.visit c.sh.db k) →
    c'.sh.db.ofCard k = visitRows cfg c.sh.vContractors k (env.visit c.sh.db k) [r]
  rows : c'.sh.db.ofCard k = visitRows cfg c.sh.vContractors k (env.visit c.sh.db k) [r] ∨
    c'.sh.db.ofCard k = []
  deleted : ReportedClosed k (env.visit c.sh.db k) → (∀ i, env.deleteClosed i = true) →
    c'.sh.db.ofCard k = []
  seen : ∃ es, c'.sh.trace = c.sh.trace ++ es ∧
    (∀ e ∈ visitSeen cfg c.sh.vContractors k (env.visit c.sh.db k) [r], e ∈ es) ∧
    (.archivingCard k ∈ es →
      .archivingCard k ∈ visitSeen cfg c.sh.vContractors k (env.visit c.sh.db k) [r])
  contractors : c'.sh.vContractors = c.sh.vContractors

/-- The one visit to a card, between others. -/
structure VisitedOnce (cfg : Config) (k : Text) (env : CardEnv) (rows : List IssueRow) (c c₁ c₂ c₃ : Checker) :
    Prop where
  before : LeftAlone k c c₁
  visit : Visit cfg k env rows c₁ c₂
  thinned : Thinned c₁.sh c₂.sh
  after : LeftAlone k c₂ c₃

theorem Begun.leftAlone {c₁ : Checker} (h : Begun env c c₁) : LeftAlone k c c₁ :=
  ⟨h.idle.spared k, by rw [h.toDelete]⟩

/-- Where a card has one row, the loop visits it once. -/
theorem processEveryCard_once {r : IssueRow} {c₁ : Checker} (hk : k ≠ of "1") (hsel : env.selectIds = true)
    (hr : c.sh.db.ofCard k = [r]) (hbegun : Begun env c c₁) :
    wp (processEveryCard cfg env)
      (fun _ c₄ => ∃ c₂ c₃, VisitedOnce cfg k (env.visit c.sh.db k) [r] c c₂ c₃ c₄)
      (fun _ _ => True) c₁ := by
  obtain ⟨before, after, hids, hbefore, hafter⟩ := Db.cardIds_split hk hr
  have hvisit : env.visit c.sh.db k = env.card before.length := by
    rw [PassEnv.visit, hids, List.idxOf_append_of_notMem hbefore, List.idxOf_cons_self, Nat.add_zero]
  have hlist : c₁.vIdCards.zipIdx =
      before.zipIdx ++ (k, before.length) :: after.zipIdx (before.length + 1) := by
    rw [hbegun.ids, PassEnv.ids, if_pos hsel, hids, List.zipIdx_append, List.zipIdx_cons, Nat.zero_add]
  have hother {ids : List Text} {n : Nat} (hids : k ∉ ids) {x : Text × Nat} (hx : x ∈ ids.zipIdx n) :
      k ≠ x.1 := fun h => hids (h ▸ List.fst_mem_of_mem_zipIdx hx)
  rw [processEveryCard, wp_bind, wp_get, hlist]
  apply wp_forEach_at (P := LeftAlone k c)
  · intro x hx d hd
    exact wp_mono ((processCard_alone (hother hbefore hx)).from_ hd) (fun _ _ h => h) fun _ _ _ => trivial
  · intro d hd
    have hrows : d.sh.db.ofCard k = [r] := hd.shared.ofCard.trans hr
    have hthin : Within (OnShared Thinned) (processCard cfg k (env.card before.length)) :=
      processCard_thins
    apply wp_mono (wp_and (processCard_rows hrows) (hthin d))
    · intro _ d' h
      exact ⟨d, d', hd, hvisit ▸ h.1, h.2, Std.Refl.refl d'⟩
    · exact fun _ _ _ => trivial
  · rintro x hx d ⟨c₂, c₃, h⟩
    apply wp_mono ((processCard_alone (hother hafter hx)).from_ h.after)
    · exact fun _ _ hlast => ⟨c₂, c₃, h.before, h.visit, h.thinned, hlast⟩
    · exact fun _ _ _ => trivial
  · exact hbegun.leftAlone

theorem Visit.trace {v : CardEnv} {rows : List IssueRow} {c₁ c₂ : Checker}
    (h : Visit cfg k v rows c₁ c₂) (hthin : Thinned c₁.sh c₂.sh) :
    ∃ es, c₂.sh.trace = c₁.sh.trace ++ es ∧
      (es.filter Effect.isSeen).Perm (visitSeen cfg c₁.sh.vContractors k v rows) := by
  obtain ⟨es, hes⟩ := hthin.trace
  obtain ⟨told, hseen, hperm⟩ := h.rows.seen
  rw [seen_append hes.symm] at hseen
  exact ⟨es, hes.symm, List.append_cancel_left hseen ▸ hperm⟩

theorem VisitedOnce.passed {r : IssueRow} {c₂ c₃ c₄ c₅ : Checker}
    (h : VisitedOnce cfg k (env.visit c.sh.db k) [r] c c₂ c₃ c₄) (hnone : k ∉ c.vCardsToDelete)
    (hswept : Swept env k c₄.vCardsToDelete c₄.sh c₅.sh) : Passed cfg env k r c c₅ := by
  have hcontractors : c₂.sh.vContractors = c.sh.vContractors := h.before.shared.contractors
  have hrows : c₄.sh.db.ofCard k = visitRows cfg c.sh.vContractors k (env.visit c.sh.db k) [r] := by
    rw [h.after.shared.ofCard, h.visit.rows.ofCard, hcontractors]
  have htoDelete : k ∈ c₄.vCardsToDelete ↔ ReportedClosed k (env.visit c.sh.db k) := by
    rw [h.after.toDelete, h.visit.toDelete, h.before.toDelete]
    simp [hnone]
  constructor
  · exact hcontractors ▸ h.visit.safe
  · intro hopen
    exact (hswept.spared fun hmem => hopen (htoDelete.mp hmem)).ofCard.trans hrows
  · exact hswept.rows.imp_left fun hsame => hsame.trans hrows
  · exact fun hclosed => hswept.deleted (htoDelete.mpr hclosed)
  · obtain ⟨es₁, h₁, hes₁⟩ := h.before.shared.quiet
    obtain ⟨es₂, h₂, hes₂⟩ := h.visit.trace h.thinned
    obtain ⟨es₃, h₃, hes₃⟩ := h.after.shared.quiet
    obtain ⟨es₄, h₄, hes₄⟩ := hswept.unseen
    rw [hcontractors] at hes₂
    refine ⟨es₁ ++ (es₂ ++ (es₃ ++ es₄)), ?_, ?_, ?_⟩
    · rw [h₄, h₃, h₂, h₁]
      simp only [List.append_assoc]
    · intro e he
      have hmem : e ∈ es₂ := (List.mem_filter.mp (hes₂.mem_iff.mpr he)).1
      simp [hmem]
    · intro hmem
      rw [← hes₂.mem_iff, List.mem_filter]
      simp only [List.mem_append] at hmem
      rcases hmem with hmem | hmem | hmem | hmem
      · exact absurd rfl (hes₁ _ hmem)
      · exact ⟨hmem, rfl⟩
      · exact absurd rfl (hes₃ _ hmem)
      · cases hes₄ _ hmem
  · rw [hswept.contractors, h.after.shared.contractors, h.visit.rows.contractors, hcontractors]

/-- **What a completed pass makes of a card that has one row.** -/
theorem checkTheList_rows {r : IssueRow} (hk : k ≠ of "1") (hsel : env.selectIds = true)
    (hnone : c.vCardsToDelete = []) (hr : c.sh.db.ofCard k = [r]) :
    wp (checkTheList cfg env) (fun _ c' => Passed cfg env k r c c' ∧ c'.vCardsToDelete = [])
      (fun _ _ => True) c := by
  have hids : env.ids c.sh.db ≠ [] := by
    have hmem : k ∈ env.ids c.sh.db := by
      rw [PassEnv.ids, if_pos hsel, Db.mem_cardIds]
      exact ⟨hk, by rw [hr]; exact List.cons_ne_nil _ _⟩
    exact List.ne_nil_of_mem hmem
  apply wp_checkTheList
  · intro c₁ hbegun _
    rw [wp_bind]
    apply wp_mono (processEveryCard_once hk hsel hr hbegun)
    · rintro _ c₄ ⟨c₂, c₃, hvisited⟩
      apply wp_mono (deleteCards_sweeps k c₄)
      · intro _ c₅ h
        exact ⟨hvisited.passed (by rw [hnone]; exact List.not_mem_nil) h.1, h.2⟩
      · exact fun _ _ _ => trivial
    · exact fun _ _ h => h
  · exact fun _ _ h _ => absurd h hids
  · exact fun _ _ _ _ => trivial

/-- A card the pass does not look at is left alone. -/
theorem checkTheList_alone (hk : k ∉ env.ids c.sh.db) (hnone : k ∉ c.vCardsToDelete) :
    wp (checkTheList cfg env) (fun _ c' => Spared k c.sh c'.sh) (fun _ c' => Spared k c.sh c'.sh) c := by
  apply wp_checkTheList
  · intro c₁ hbegun _
    have hround : ∀ x ∈ c₁.vIdCards.zipIdx, k ≠ x.1 := by
      intro x hx h
      rw [hbegun.ids] at hx
      exact hk (h ▸ List.fst_mem_of_mem_zipIdx hx)
    have hloop : wp (processEveryCard cfg env) (fun _ => LeftAlone k c) (fun _ => LeftAlone k c) c₁ :=
      wp_processEveryCard (fun x hx d hd => (processCard_alone (hround x hx)).from_ hd) hbegun.leftAlone
    rw [wp_bind]
    apply wp_mono hloop
    · intro _ c₄ h₄
      apply wp_mono (deleteCards_sweeps k c₄)
      · intro _ c₅ h
        have hkept : k ∉ c₄.vCardsToDelete := fun hmem => hnone (h₄.toDelete.mp hmem)
        exact IsTrans.trans _ _ _ h₄.shared (h.1.spared hkept)
      · exact fun _ _ h => h.elim
    · exact fun _ _ h => h.shared
  · exact fun _ h _ _ => h.idle.spared k
  · exact fun _ _ h _ => h.idle.spared k

end

end Chanserv
