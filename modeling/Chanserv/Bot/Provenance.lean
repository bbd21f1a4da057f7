import Chanserv.Bot.Lives
import Chanserv.Bot.Selection
import Mathlib.Data.List.Induction

/-! Why a contractor has an issue, and why it is on his list.

A row is nobody's when it is filed, and only a visit of the checker gives it to a
contractor: one whose column Trello said the card was in. So behind every issue
somebody has there is such a visit in the history, and since then the issue has
been his. What the bot lists was his when the list was shown. -/
namespace Chanserv
open Text Program

/-- Who has an issue, as its row says. -/
def IssueRow.holder (r : IssueRow) : List Text :=
  [r.cardStatus, r.contractorList, r.contractorLink, r.contractorId, r.contractorName]

/-- What the row of an issue says that a contractor has. -/
def Contractor.holding (c : Contractor) : List Text :=
  [of "underway", c.trelloList, c.link, itoa c.id, c.name]

/-! ### A visit, row by row -/

/-- Trello says that the card is in a column, in the answer to the checker's request for it. -/
def CardEnv.InColumn (env : CardEnv) (idCard listId : Text) : Prop :=
  ∃ card, cardRead idCard env.getCard = .returns (.ok card) ∧ card.idList = listId

/-- The column recorded for a card that has a contractor is the first one. -/
def CardEnv.HandsBack (cfg : Config) (env : CardEnv) (idCard : Text) (rows : List IssueRow) : Prop :=
  ∃ card, cardRead idCard env.getCard = .returns (.ok card) ∧ HandedBack cfg env card.idList rows

/-- What a visit can make of a row of its card. -/
structure Passes (cfg : Config) (contractors : List Contractor) (idCard : Text) (env : CardEnv) (rows : List IssueRow)
    (r r' : IssueRow) : Prop where
  id : r'.id = r.id
  origin : r'.origin = r.origin
  holder : r'.holder = r.holder ∨ r'.contractorId = [] ∧ env.HandsBack cfg idCard rows ∨
    ∃ c ∈ contractors, env.InColumn idCard c.trelloList ∧ r'.holder = c.holding

/-- Every row comes of one there was. -/
def AllPass (cfg : Config) (contractors : List Contractor) (idCard : Text) (env : CardEnv) (rows rows' : List IssueRow) :
    Prop :=
  ∀ r' ∈ rows', ∃ r ∈ rows, Passes cfg contractors idCard env rows r r'

section
variable {cfg : Config} {contractors : List Contractor} {idCard : Text} {env : CardEnv} {rows rows' : List IssueRow}
  {r r' : IssueRow} {card : JiraCard}

theorem Passes.refl (r : IssueRow) : Passes cfg contractors idCard env rows r r := ⟨rfl, rfl, .inl rfl⟩

theorem AllPass.refl (rows : List IssueRow) : AllPass cfg contractors idCard env rows rows := fun r hr => ⟨r, hr, .refl r⟩

theorem AllPass.nil : AllPass cfg contractors idCard env rows [] := fun _ hr => absurd hr List.not_mem_nil

theorem AllPass.map {f : IssueRow → IssueRow} (h : AllPass cfg contractors idCard env rows rows')
    (hf : ∀ r r', Passes cfg contractors idCard env rows r r' → Passes cfg contractors idCard env rows r (f r')) :
    AllPass cfg contractors idCard env rows (rows'.map f) := by
  intro s hs
  obtain ⟨r', hr', rfl⟩ := List.mem_map.mp hs
  obtain ⟨r, hr, hpasses⟩ := h r' hr'
  exact ⟨r, hr, hf r r' hpasses⟩

theorem Passes.listed (h : Passes cfg contractors idCard env rows r r') (column : Text) :
    Passes cfg contractors idCard env rows r (r'.listed column) := ⟨h.id, h.origin, h.holder⟩

theorem Passes.cleared (h : Passes cfg contractors idCard env rows r r') (hback : env.HandsBack cfg idCard rows) :
    Passes cfg contractors idCard env rows r r'.cleared := ⟨h.id, h.origin, .inr (.inl ⟨rfl, hback⟩)⟩

theorem Passes.assigned (h : Passes cfg contractors idCard env rows r r') {c : Contractor} (hc : c ∈ contractors)
    (hlist : env.InColumn idCard c.trelloList) : Passes cfg contractors idCard env rows r (r'.assigned c) :=
  ⟨h.id, h.origin, .inr (.inr ⟨c, hc, hlist, rfl⟩)⟩

theorem listedRows_pass : AllPass cfg contractors idCard env rows (listedRows env card.idList rows) := by
  rw [listedRows]
  split
  · exact (AllPass.refl rows).map fun _ _ h => h.listed card.idList
  · exact .refl rows

variable (hread : cardRead idCard env.getCard = .returns (.ok card))
include hread

theorem clearedRows_pass : AllPass cfg contractors idCard env rows (clearedRows cfg env card.idList rows) := by
  rw [clearedRows]
  split
  · next hback => exact listedRows_pass.map fun _ _ h => h.cleared ⟨card, hread, hback.1⟩
  · exact listedRows_pass

theorem ownedRows_pass :
    AllPass cfg contractors idCard env rows (ownedRows cfg contractors env card.idList rows) := by
  rw [ownedRows]
  cases howner : ownerOf contractors card.idList with
  | none => exact clearedRows_pass hread
  | some c =>
    obtain ⟨hc, hlist⟩ := owner_list howner
    show AllPass cfg contractors idCard env rows (assignedRows c env.assign (clearedRows cfg env card.idList rows))
    rw [assignedRows]
    split
    · exact (clearedRows_pass hread).map fun _ _ h => h.assigned hc ⟨card, hread, hlist.symm⟩
    · exact clearedRows_pass hread

theorem reworkedRows_pass {rework : ReworkEnv} :
    AllPass cfg contractors idCard env rows (reworkedRows rework (ownedRows cfg contractors env card.idList rows)) := by
  rw [reworkedRows]
  split
  · exact .nil
  · exact ownedRows_pass hread

theorem syncedRows_pass :
    AllPass cfg contractors idCard env rows (syncedRows cfg contractors env card.idList rows) := by
  rw [syncedRows]
  split
  · split
    · exact reworkedRows_pass hread
    · exact ownedRows_pass hread
  · exact clearedRows_pass hread

end

section
variable {cfg : Config} {env : CardEnv} {idCard : Text} {c : Checker} {contractors : List Contractor} {rows : List IssueRow}

theorem visitRows_pass : AllPass cfg contractors idCard env rows (visitRows cfg contractors idCard env rows) := by
  rw [visitRows]
  split
  · next card hread => exact syncedRows_pass hread
  · split
    · exact .nil
    · exact .refl rows
  · exact .refl rows

theorem VisitLeaves.pass {left : List IssueRow} (h : VisitLeaves cfg contractors idCard env rows left) :
    AllPass cfg contractors idCard env rows left := by
  rw [VisitLeaves] at h
  split at h
  · next card hread =>
    rcases h with rfl | ⟨-, rfl⟩
    · exact ownedRows_pass hread
    · exact reworkedRows_pass hread
  · rw [h]
    exact .refl rows

/-- A row a visit leaves is one it found, or one it found of its own card and passed on. -/
theorem visit_passes {db : Db} {r' : IssueRow} (hr' : r' ∈ ((Inspection.visit c idCard env).run cfg db).issues) :
    r' ∈ db.issues ∨
      ∃ r ∈ db.issues, r.idCard = idCard ∧ Passes cfg c.sh.vContractors idCard env (db.ofCard idCard) r r' := by
  let d : Checker := {c with sh := {c.sh with db}}
  have hdone (d' : Checker) {rows : List IssueRow}
      (hrows : AllPass cfg c.sh.vContractors idCard env (db.ofCard idCard) rows)
      (hcard : d'.sh.db.ofCard idCard = rows) (hother : ∀ k, k ≠ idCard → LeftAlone k d d')
      (hr' : r' ∈ d'.sh.db.issues) : r' ∈ db.issues ∨
        ∃ r ∈ db.issues, r.idCard = idCard ∧ Passes cfg c.sh.vContractors idCard env (db.ofCard idCard) r r' := by
    by_cases hk : r'.idCard = idCard
    · have hmem : r' ∈ rows := hcard ▸ Keyed.mem_rows.mpr ⟨hr', hk⟩
      obtain ⟨r, hr, hpasses⟩ := hrows r' hmem
      obtain ⟨hr, hrk⟩ := Keyed.mem_rows.mp hr
      exact .inr ⟨r, hr, hrk, hpasses⟩
    · have hmem : r' ∈ d.sh.db.ofCard r'.idCard :=
        (hother _ hk).shared.ofCard ▸ Keyed.mem_rows_self hr'
      exact .inl (Keyed.mem_rows.mp hmem).1
  have halone := wp_forall fun k => wp_forall fun hk : k ≠ idCard => @processCard_alone cfg k idCard env hk d
  have hvisit := wp_and (@processCard_rows cfg idCard env (db.ofCard idCard) d rfl) halone
  refine of_wp (P := fun _ (d' : Checker) => r' ∈ d'.sh.db.issues → _) ?_ hr'
  exact wp_mono hvisit (fun _ d' h => hdone d' visitRows_pass h.1.rows.ofCard h.2)
    fun _ d' h => hdone d' h.1.rows.ofCard.pass rfl h.2

end

/-! ### The history of a row -/

section
variable {cfg : Config} {w : World}

theorem IssueRow.idCard_of_origin {r s : IssueRow} (h : r.origin = s.origin) : r.idCard = s.idCard := by
  simp only [IssueRow.origin, List.cons.injEq] at h
  exact h.2.1

theorem IssueRow.contractorId_of_holder {r s : IssueRow} (h : r.holder = s.holder) :
    r.contractorId = s.contractorId := by
  simp only [IssueRow.holder, List.cons.injEq] at h
  exact h.2.2.2.1

/-- A row the bot leaves was there, or is new and nobody's. -/
theorem Books.row {s s' : Shared} (h : Books NoEdit s s') {r' : IssueRow} (hr' : r' ∈ s'.db.issues) :
    r' ∈ s.db.issues ∨ s.db.nextIssueId ≤ r'.id ∧ r'.contractorId = [] :=
  (h.unedited (fun _ => id) r' hr').imp_right fun hnew => ⟨hnew.2, hnew.1.id⟩

/-- A row after a deed is one from before, is new, nobody's and filed with a message, or was at a visit to its
card. -/
theorem Deed.after_row (d : Deed) {r' : IssueRow} (hr' : r' ∈ (d.after cfg w).sh.db.issues) :
    (∃ r ∈ w.sh.db.issues, r.id = r'.id ∧ r.origin = r'.origin ∧ r.holder = r'.holder) ∨
    (w.sh.db.nextIssueId ≤ r'.id ∧ r'.contractorId = [] ∧ ∃ env m, d = .update env (.message m)) ∨
    ∃ r ∈ w.sh.db.issues, ∃ c env, d = .inspected (.visit c r.idCard env) ∧
      Passes cfg c.sh.vContractors r.idCard env (w.sh.db.ofCard r.idCard) r r' := by
  have hsame (h : r' ∈ w.sh.db.issues) : ∃ r ∈ w.sh.db.issues, r.id = r'.id ∧ r.origin = r'.origin ∧
      r.holder = r'.holder := ⟨r', h, rfl, rfl, rfl⟩
  cases d with
  | update env x =>
    by_cases hx : ∃ m, x = .message m
    · obtain ⟨m, rfl⟩ := hx
      rcases (handleUpdate_books env (.message m) w).row hr' with hr | ⟨hnew, hnobody⟩
      · exact .inl (hsame hr)
      · exact .inr (.inl ⟨hnew, hnobody, env, m, rfl⟩)
    · have hstays : Stays (OnWorld FewerRows) (handleUpdate cfg env x) :=
        handleUpdate_onWorld (fun m hm => absurd ⟨m, hm⟩ hx) fun _ _ _ => inferInstance
      exact .inl (hsame (of_wp (P := fun _ => OnWorld FewerRows w) (hstays.within w) hr'))
  | job env task =>
    have hstays : Stays (OnWorld FewerRows) (serviceBot (runTask cfg env task)) := runTask_onWorld env task
    exact .inl (hsame (of_wp (P := fun _ => OnWorld FewerRows w) (hstays.within w) hr'))
  | queued tasks => exact .inl (hsame hr')
  | restart sh => exact .inl (hsame hr')
  | others db skipped => exact .inl (hsame hr')
  | inspected i =>
    cases i with
    | removal idCard => exact .inl (hsame (List.mem_filter.mp hr').1)
    | visit c idCard env =>
      rcases visit_passes hr' with hr | ⟨r, hr, rfl, hpasses⟩
      · exact .inl (hsame hr)
      · exact .inr (.inr ⟨r, hr, c, env, rfl, hpasses⟩)

/-- A row somebody has is followed from the visit that gave it to him. -/
@[elab_as_elim]
theorem held_induct {Q : List Deed → IssueRow → Prop} (hfree : ∀ r ∈ w.sh.db.issues, r.contractorId = [])
    (hgiven : ∀ ds c env r, r ∈ (w.lived cfg (ds ++ [.inspected (.visit c r.idCard env)])).sh.db.issues →
      (∃ contractor ∈ c.sh.vContractors, env.InColumn r.idCard contractor.trelloList ∧ r.holder = contractor.holding) →
      Q (ds ++ [.inspected (.visit c r.idCard env)]) r)
    (hkept : ∀ ds d s r, r ∈ (w.lived cfg (ds ++ [d])).sh.db.issues → s.id = r.id → s.origin = r.origin →
      s.holder = r.holder → Q ds s → Q (ds ++ [d]) r)
    (ds : List Deed) {r : IssueRow} (hr : r ∈ (w.lived cfg ds).sh.db.issues) (hheld : r.contractorId ≠ []) : Q ds r := by
  induction ds using List.reverseRecOn generalizing r with
  | nil => exact absurd (hfree r hr) hheld
  | append_singleton ds d ih =>
    have hnow := hr
    rw [World.lived_concat] at hr
    have hfollow {s : IssueRow} (hs : s ∈ (w.lived cfg ds).sh.db.issues) (hid : s.id = r.id)
        (horigin : s.origin = r.origin) (hholder : s.holder = r.holder) : Q (ds ++ [d]) r := by
      rw [← IssueRow.contractorId_of_holder hholder] at hheld
      exact hkept ds d s r hnow hid horigin hholder (ih hs hheld)
    rcases d.after_row hr with ⟨s, hs, hid, horigin, hholder⟩ | ⟨-, hnobody, -⟩ | ⟨s, hs, c, env, rfl, hpasses⟩
    · exact hfollow hs hid horigin hholder
    · exact absurd hnobody hheld
    · have hcard : r.idCard = s.idCard := IssueRow.idCard_of_origin hpasses.origin
      rcases hpasses.holder with hsame | ⟨hnobody, -⟩ | ⟨contractor, hc, hcolumn, hholding⟩
      · exact hfollow hs hpasses.id.symm hpasses.origin.symm hsame.symm
      · exact absurd hnobody hheld
      · rw [← hcard] at hcolumn hnow ⊢
        exact hgiven ds c env r hnow ⟨contractor, hc, hcolumn, hholding⟩

/-- **Behind every issue somebody has there is a visit.** Where no row has a contractor at first, one who has
an issue is a contractor in whose column Trello showed the card when the checker asked for it; and the issue
has been his ever since. -/
theorem held_by_visit (hfree : ∀ r ∈ w.sh.db.issues, r.contractorId = []) (ds : List Deed) {r : IssueRow}
    (hr : r ∈ (w.lived cfg ds).sh.db.issues) (hheld : r.contractorId ≠ []) :
    ∃ before c env after, ds = before ++ .inspected (.visit c r.idCard env) :: after ∧
      (∃ contractor ∈ c.sh.vContractors,
        env.InColumn r.idCard contractor.trelloList ∧ r.holder = contractor.holding) ∧
      ∀ done, done <+: after →
        ∃ s ∈ (w.lived cfg (before ++ .inspected (.visit c r.idCard env) :: done)).sh.db.issues,
          s.id = r.id ∧ s.origin = r.origin ∧ s.holder = r.holder := by
  refine held_induct hfree ?_ ?_ ds hr hheld
  · intro ds c env r hr hcontractor
    refine ⟨ds, c, env, [], rfl, hcontractor, fun done hdone => ?_⟩
    rw [List.prefix_nil.mp hdone]
    exact ⟨r, hr, rfl, rfl, rfl⟩
  · rintro ds d s r hr hid horigin hholder ⟨before, c, env, after, rfl, hcontractor, hsince⟩
    rw [IssueRow.idCard_of_origin horigin, hholder] at hcontractor
    rw [IssueRow.idCard_of_origin horigin] at hsince hr ⊢
    refine ⟨before, c, env, after ++ [d], by simp, hcontractor, fun done hdone => ?_⟩
    rcases List.prefix_concat_iff.mp hdone with rfl | hdone
    · exact ⟨r, by simpa using hr, rfl, rfl, rfl⟩
    · obtain ⟨t, ht, htid, htorigin, htholder⟩ := hsince done hdone
      exact ⟨t, ht, htid.trans hid, htorigin.trans horigin, htholder.trans hholder⟩

/-- The card of `filed300` is in the column of 3. -/
def givenTo3 : Inspection :=
  .visit {sh := {vContractors := [⟨3, of "Ivan", of "ivan", of "three"⟩]}} (of "c1")
    (.calm (.returns (Board.reply (fun _ => some ⟨false, of "three"⟩) (of "c1"))))

theorem held_by_visit_first :
    let w := filed300.lived {} [.inspected givenTo3]
    ∀ r ∈ w.sh.db.issues, ∃ before c env after,
      [.inspected givenTo3] = before ++ .inspected (.visit c r.idCard env) :: after ∧
      (∃ contractor ∈ c.sh.vContractors,
        env.InColumn r.idCard contractor.trelloList ∧ r.holder = contractor.holding) ∧
      ∀ done, done <+: after →
        ∃ s ∈ (filed300.lived {} (before ++ .inspected (.visit c r.idCard env) :: done)).sh.db.issues,
          s.id = r.id ∧ s.origin = r.origin ∧ s.holder = r.holder := by
  intro w r hr
  have hheld : ∀ r ∈ w.sh.db.issues, r.contractorId ≠ [] := by decide +kernel
  exact held_by_visit (by decide +kernel) [.inspected givenTo3] hr (hheld r hr)

/-! ### Lists -/

/-- A card that is on a list after a deed was on it before, or is of a row of the user who asked for the
list. -/
theorem Deed.after_lists (d : Deed) {user : Int} {k : Text} (hk : (d.after cfg w).Lists user k) :
    w.Lists user k ∨ ∃ env q, d = .update env (.callback q) ∧ q.from_.id = user ∧
      buttonOf q.data = some .myTasks ∧ ∃ r ∈ w.sh.db.issues, r.idCard = k ∧ r.contractorId = itoa user := by
  have hkept {S : Shared → Shared → Prop} {m : BotM Unit} (hstays : Stays (KeptLists S) m)
      (hk : (final m w).Lists user k) : w.Lists user k :=
    (of_wp (P := fun _ => KeptLists S w) (hstays.within w)).lists hk
  cases d with
  | update env x =>
    cases x with
    | message m => exact .inl (hkept (handleUpdate_stays fun _ => by simp) hk)
    | command name m => exact .inl (hkept (handleUpdate_stays fun _ => by simp) hk)
    | callback q =>
      by_cases hb : buttonOf q.data = some .myTasks
      · have hrelisted := of_wp (P := fun _ => Relisted q.from_.id q.messageId
          (myRows env.callback.myIssues w.sh.db q.from_.id) w) (@myTasks_relisted cfg env.callback q env.now w hb)
        refine (hrelisted.1 user k hk).imp_right ?_
        rintro ⟨rfl, -, r, hr, hcard⟩
        refine ⟨env, q, rfl, rfl, hb, r, ?_, hcard, ?_⟩
        all_goals
          unfold myRows at hr
          split at hr
          · obtain ⟨hr, hown⟩ := List.mem_filter.mp hr
            first
            | exact hr
            | exact of_decide_eq_true hown
          · cases hr
      · have hstays : Stays (KeptLists FewerRows) (onCallbackQuery cfg env.callback q env.now) :=
          onCallbackQuery_stays hb
        exact .inl (hkept hstays hk)
  | job env task =>
    have htask : Stays FewerRows (runTask cfg env task) := runTask_stays env task
    have hstays : Stays (KeptLists FewerRows) (serviceBot (runTask cfg env task)) := inferInstance
    exact .inl (hkept hstays hk)
  | restart sh =>
    obtain ⟨u, hu, -⟩ := hk
    cases hu
  | queued tasks => exact .inl hk
  | inspected i => exact .inl hk
  | others db skipped => exact .inl hk

/-- Who is on a list at some time asked for it when a row of the card was his. -/
theorem listed_by_request (hnobody : ∀ user, w.session user = none) (ds : List Deed) {user : Int} {k : Text}
    (hk : (w.lived cfg ds).Lists user k) :
    ∃ before env q after, ds = before ++ .update env (.callback q) :: after ∧ q.from_.id = user ∧
      buttonOf q.data = some .myTasks ∧
      ∃ r ∈ (w.lived cfg before).sh.db.issues, r.idCard = k ∧ r.contractorId = itoa user := by
  induction ds using List.reverseRecOn with
  | nil =>
    obtain ⟨u, hu, -⟩ := hk
    rw [World.lived, List.foldl_nil, hnobody user] at hu
    cases hu
  | append_singleton ds d ih =>
    rw [World.lived_concat] at hk
    rcases d.after_lists hk with hk | ⟨env, q, rfl, hfrom, hb, hrow⟩
    · obtain ⟨before, env, q, after, rfl, hfound⟩ := ih hk
      exact ⟨before, env, q, after ++ [d], by simp, hfound⟩
    · exact ⟨ds, env, q, [], rfl, hfrom, hb, hrow⟩

/-- Whose a row is, he got it at a visit. -/
theorem row_given (hfree : ∀ r ∈ w.sh.db.issues, r.contractorId = []) (ds : List Deed) {r : IssueRow}
    (hr : r ∈ (w.lived cfg ds).sh.db.issues) (hheld : r.contractorId ≠ []) :
    ∃ before c env after, ds = before ++ .inspected (.visit c r.idCard env) :: after ∧
      ∃ contractor ∈ c.sh.vContractors, env.InColumn r.idCard contractor.trelloList ∧ r.holder = contractor.holding := by
  refine held_induct hfree (fun ds c env r _ hcontractor => ⟨ds, c, env, [], rfl, hcontractor⟩) ?_ ds hr hheld
  rintro ds d s r - - horigin hholder ⟨before, c, env, after, rfl, hcontractor⟩
  rw [IssueRow.idCard_of_origin horigin, hholder] at hcontractor
  rw [IssueRow.idCard_of_origin horigin]
  exact ⟨before, c, env, after ++ [d], by simp, hcontractor⟩

/-- **Behind every issue on a contractor's list there is his request, and behind that a visit** at which
Trello showed the card in the column of a contractor of his id. -/
theorem listed_by_visit (hfree : ∀ r ∈ w.sh.db.issues, r.contractorId = []) (hnobody : ∀ user, w.session user = none)
    (ds : List Deed) {user : Int} {k : Text} (hk : (w.lived cfg ds).Lists user k) :
    ∃ before c env between uenv q after,
      ds = before ++ .inspected (.visit c k env) :: between ++ .update uenv (.callback q) :: after ∧
        q.from_.id = user ∧ buttonOf q.data = some .myTasks ∧
        ∃ contractor ∈ c.sh.vContractors, contractor.id = user ∧ env.InColumn k contractor.trelloList := by
  obtain ⟨early, uenv, q, after, rfl, hfrom, hb, r, hr, rfl, hown⟩ := listed_by_request hnobody ds hk
  have hheld : r.contractorId ≠ [] := by
    rw [hown]
    exact itoa_ne_nil user
  obtain ⟨before, c, env, between, rfl, contractor, hc, hcolumn, hholding⟩ := row_given hfree early hr hheld
  have hid : itoa contractor.id = itoa user := by
    rw [← hown]
    simp only [IssueRow.holder, Contractor.holding, List.cons.injEq] at hholding
    exact hholding.2.2.2.1.symm
  exact ⟨before, c, env, between, uenv, q, after, rfl, hfrom, hb, contractor, hc, itoa_injective hid, hcolumn⟩

end

/-- 3 asks for his list. -/
theorem listed_by_visit_first :
    let ds : List Deed := [.inspected givenTo3, .update (.calm 0) (startFrom 3), .update (.calm 0) (clickFrom 3 "my_tasks")]
    (filed300.lived {} ds).Lists 3 (of "c1") ∧ ∃ before c env between uenv q after,
      ds = before ++ .inspected (.visit c (of "c1") env) :: between ++ .update uenv (.callback q) :: after ∧
        q.from_.id = 3 ∧ buttonOf q.data = some .myTasks ∧
        ∃ contractor ∈ c.sh.vContractors, contractor.id = 3 ∧ env.InColumn (of "c1") contractor.trelloList := by
  intro ds
  have hlisted : (filed300.lived {} ds).Lists 3 (of "c1") := by
    have hlist : ((filed300.lived {} ds).session 3).any fun u => u.pgdbIssues.any fun p => p.idCard = of "c1" := by
      decide +kernel
    obtain ⟨u, hu, hp⟩ := (Option.any_eq_true _ _).mp hlist
    obtain ⟨p, hp, hcard⟩ := List.any_eq_true.mp hp
    exact ⟨u, hu, p, hp, of_decide_eq_true hcard⟩
  exact ⟨hlisted, listed_by_visit (by decide +kernel) (fun _ => rfl) ds hlisted⟩

end Chanserv
