import Chanserv.Checker.Passes
import Mathlib.Data.Set.Insert

/-! Passes in which some users cannot be written to.

The notice to the staff passes over those it does not reach. The messages to a
customer and to a contractor do not: one that fails ends the pass, after the row
was written. So a pass survives a set of unreachable users exactly when it has
nothing to tell any of them (`unspoiled_iff`). -/
namespace Chanserv
open Text Program

/-- A message to a user: a `TgException` when the user cannot be reached. -/
def SentUnless (F : Set Int) (user : Int) (r : Sending) : Prop :=
  (user ∈ F → r = .throws .tgException) ∧ (user ∉ F → r.Normal)

theorem SentUnless.normal_iff {F : Set Int} {user : Int} {r : Sending} (h : SentUnless F user r) :
    r.Normal ↔ user ∉ F :=
  ⟨fun hr hmem => hr.not_throws (h.1 hmem), h.2⟩

/-- The calls for one card, when exactly the messages to certain users fail. The statements may
fail too: they throw nothing. -/
structure CardEnv.Unreached (F : Set Int) (cfg : Config) (env : CardEnv) : Prop where
  getCard : ∀ k, (cardRead k env.getCard).Normal
  archive : env.rework.archive.Normal
  consumer : ∀ x, SentUnless F x (env.assign.customer x)
  contractor : ∀ x, SentUnless F x (env.assign.contractor x)
  customer : ∀ x, SentUnless F x (env.rework.customer x)
  staff : ∀ x ∈ cfg.vStaff.zipIdx, SentUnless F x.1 (env.rework.staff x.2)

def PassEnv.Unreached (F : Set Int) (cfg : Config) (env : PassEnv) : Prop :=
  ∀ i, (env.card i).Unreached F cfg

/-- The same calls when one user cannot be reached. -/
def CardEnv.without (cfg : Config) (user : Int) (env : CardEnv) : CardEnv :=
  let sending (x : Int) : Sending := if x = user then .throws .tgException else .returns ⟨0, 0⟩
  { env with
    assign := {env.assign with customer := sending, contractor := sending}
    rework :=
      {env.rework with customer := sending, staff := fun i => sending (cfg.vStaff.getD i 0)} }

def PassEnv.without (cfg : Config) (user : Int) (env : PassEnv) : PassEnv :=
  {env with card := fun i => (env.card i).without cfg user}

theorem CardEnv.unreached_without {cfg : Config} {user : Int} {env : CardEnv}
    (hgetCard : ∀ k, (cardRead k env.getCard).Normal) (harchive : env.rework.archive.Normal) :
    (env.without cfg user).Unreached {user} cfg := by
  have hsending (x : Int) :
      SentUnless {user} x (if x = user then .throws .tgException else .returns ⟨0, 0⟩) := by
    constructor
    · intro hx
      rw [if_pos (Set.mem_singleton_iff.mp hx)]
    · intro hx
      rw [if_neg fun h => hx (Set.mem_singleton_iff.mpr h)]
      trivial
  refine ⟨hgetCard, harchive, hsending, hsending, hsending, ?_⟩
  intro x hx
  have hstaff : cfg.vStaff.getD x.2 0 = x.1 := by
    rw [List.getD_eq_getElem?_getD, List.mk_mem_zipIdx_iff_getElem?.mp hx, Option.getD_some]
  have hsent := hsending x.1
  rw [← hstaff] at hsent ⊢
  exact hsent

/-- The message to a contractor who got a card. -/
def assignmentNotice (contractor : Int) : Effect :=
  .sendMessage (.user contractor) (of "❗️❗️❗️ \nУ вас появилась новая задача - проверьте свои задачи")

/-! ### Whom a pass writes to -/

section
variable (cfg : Config) (contractors : List Contractor)

/-- Whom a visit writes to, the staff apart: the customer and the contractor of a card it assigns,
the customer of a card it sends back. -/
def visitRecipients (k : Text) (env : CardEnv) (rows : List IssueRow) : List Int :=
  match cardRead k env.getCard with
  | .returns (.ok card) =>
    if checkedStatus cfg env card.idList rows = of "pending" then
      (match ownerOf contractors card.idList with
        | some c =>
          if env.assign.update then
            [customerOf env.assign.selectConsumer
              (assignedRows c env.assign (clearedRows cfg env card.idList rows)), c.id]
          else []
        | none => []) ++
      if recordedList env card.idList rows = cfg.reworkList then
        [customerOf env.rework.selectCustomer (ownedRows cfg contractors env card.idList rows)]
      else []
    else []
  | _ => []

/-- The same for the visits to several cards. Rows with one id are visited as often as there are of
them, so a visit may find what an earlier one left. -/
def passRecipients (env : PassEnv) : List (Text × Nat) → (Text → List IssueRow) → List Int
  | [], _ => []
  | (k, i) :: cards, rows =>
    visitRecipients cfg contractors k (env.card i) (rows k) ++
      passRecipients env cards
        (Function.update rows k (visitRows cfg contractors k (env.card i) (rows k)))

end

section
variable {F : Set Int} {cfg : Config} {contractors : List Contractor} {k : Text} {v : CardEnv}
  {rows : List IssueRow}

/-- A visit is done exactly when all it writes to can be reached. -/
theorem visitSafe_iff (h : v.Unreached F cfg) :
    VisitSafe cfg contractors k v rows ↔ ∀ x ∈ visitRecipients cfg contractors k v rows, x ∉ F := by
  rw [VisitSafe, visitRecipients]
  cases hread : cardRead k v.getCard with
  | throws x => exact absurd hread (h.getCard k).not_throws
  | returns answer =>
    cases answer with
    | error code => simp
    | ok card =>
      dsimp only
      have hstaff : ∀ i < cfg.vStaff.length, v.rework.staff i ≠ .throws .stdException := by
        rw [← forall_mem_zipIdx]
        intro x hx hthrows
        have hsent := h.staff x hx
        by_cases hmem : x.1 ∈ F
        · rw [hsent.1 hmem] at hthrows
          cases hthrows
        · exact (hsent.2 hmem).not_throws hthrows
      have hassign (c : Contractor) (rows : List IssueRow) : v.assign.Safe c rows ↔
          ∀ x ∈ (if v.assign.update then [customerOf v.assign.selectConsumer rows, c.id] else []), x ∉ F := by
        rw [AssignEnv.Safe]
        by_cases hupdate : v.assign.update = true
        · rw [if_pos hupdate, (h.consumer _).normal_iff, (h.contractor _).normal_iff]
          simp [hupdate]
        · rw [if_neg hupdate]
          simp [hupdate]
      have hrework (rows : List IssueRow) : v.rework.Safe cfg rows ↔
          customerOf v.rework.selectCustomer rows ∉ F := by
        rw [ReworkEnv.Safe, (h.customer _).normal_iff]
        exact ⟨fun hs => hs.1, fun hs => ⟨hs, hstaff, h.archive⟩⟩
      rw [SyncSafe]
      split
      next hstatus =>
        rw [List.forall_mem_append]
        constructor
        · intro hsafe
          obtain ⟨howner, hlist⟩ := hsafe hstatus
          constructor
          · cases hc : ownerOf contractors card.idList with
            | none => simp
            | some c => exact (hassign c _).mp (howner c hc)
          · split
            next hl => simpa using (hrework _).mp (hlist hl)
            next => simp
        · rintro ⟨howner, hlist⟩ -
          constructor
          · intro c hc
            rw [hc] at howner
            exact (hassign c _).mpr howner
          · intro hl
            rw [if_pos hl] at hlist
            exact (hrework _).mpr (hlist _ (List.mem_singleton_self _))
      next hstatus => simp [hstatus]

/-! ### Rows that came to be underway -/

theorem mem_listedRows {s : IssueRow} {listId : Text} (h : s ∈ listedRows v listId rows) :
    ∃ r ∈ rows, r.keys = s.keys ∧ r.cardStatus = s.cardStatus ∧ r.contractorId = s.contractorId := by
  rw [listedRows] at h
  split at h
  · obtain ⟨r, hr, rfl⟩ := List.mem_map.mp h
    exact ⟨r, hr, rfl, rfl, rfl⟩
  · exact ⟨s, h, rfl, rfl, rfl⟩

/-- Handing a card back leaves no row underway. -/
theorem mem_clearedRows {s : IssueRow} {listId : Text} (h : s ∈ clearedRows cfg v listId rows)
    (hunderway : s.cardStatus = of "underway") :
    ∃ r ∈ rows, r.keys = s.keys ∧ r.cardStatus = of "underway" ∧ r.contractorId = s.contractorId := by
  have hlisted : s ∈ listedRows v listId rows := by
    rw [clearedRows] at h
    split at h
    · obtain ⟨r, -, rfl⟩ := List.mem_map.mp h
      have hpending : of "pending" ≠ of "underway" := by decide
      exact absurd hunderway hpending
    · exact h
  obtain ⟨r, hr, hkeys, hstatus, hid⟩ := mem_listedRows hlisted
  exact ⟨r, hr, hkeys, hstatus.trans hunderway, hid⟩

/-- A row underway after a visit was so before, or its contractor was written to. -/
theorem mem_visitRows {s : IssueRow} (h : s ∈ visitRows cfg contractors k v rows)
    (hunderway : s.cardStatus = of "underway") :
    (∃ r ∈ rows, r.keys = s.keys ∧ r.cardStatus = of "underway" ∧ r.contractorId = s.contractorId) ∨
      ∃ x ∈ contractors, s.contractorId = itoa x.id ∧
        assignmentNotice x.id ∈ visitSeen cfg contractors k v rows := by
  rw [visitRows] at h
  split at h
  next card hread =>
    rw [visitSeen, hread]
    dsimp only
    rw [syncedRows] at h
    split at h
    next hstatus =>
      have howned : s ∈ ownedRows cfg contractors v card.idList rows := by
        split at h
        · rw [reworkedRows] at h
          split at h
          · cases h
          · exact h
        · exact h
      rw [syncedSeen, if_pos hstatus]
      rw [ownedRows] at howned
      cases hc : ownerOf contractors card.idList with
      | none =>
        rw [hc] at howned
        exact .inl (mem_clearedRows howned hunderway)
      | some c =>
        rw [hc] at howned
        dsimp only at howned ⊢
        rw [assignedRows] at howned
        split at howned
        next hupdate =>
          obtain ⟨r, -, rfl⟩ := List.mem_map.mp howned
          refine .inr ⟨c, List.mem_of_find?_eq_some hc, rfl, List.mem_append_left _ ?_⟩
          rw [assignedSeen, if_pos hupdate]
          exact List.mem_cons_of_mem _ (List.mem_singleton_self _)
        next => exact .inl (mem_clearedRows howned hunderway)
    next => exact .inl (mem_clearedRows h hunderway)
  next =>
    split at h
    · cases h
    · exact .inl ⟨s, h, rfl, hunderway, rfl⟩
  next => exact .inl ⟨s, h, rfl, hunderway, rfl⟩

/-! ### A pass -/

/-- Every row that came to be underway since then: its contractor was written to. -/
def Notified (c d : Checker) : Prop :=
  ∃ es, d.sh.trace = c.sh.trace ++ es ∧
    ∀ s ∈ d.sh.db.issues, s.cardStatus = of "underway" →
      (∃ r ∈ c.sh.db.issues, r.keys = s.keys ∧ r.cardStatus = of "underway" ∧
        r.contractorId = s.contractorId) ∨
      ∃ x ∈ c.sh.vContractors, s.contractorId = itoa x.id ∧ assignmentNotice x.id ∈ es

variable {env : PassEnv} {c : Checker}

/-- What one more visit does, the rows of all cards being known. -/
theorem processCard_notified {rows : Text → List IssueRow} {d : Checker}
    (hrows : ∀ j, d.sh.db.ofCard j = rows j) (hcontractors : d.sh.vContractors = c.sh.vContractors)
    (hnotified : Notified c d) :
    wp (processCard cfg k v)
      (fun _ d' => VisitSafe cfg c.sh.vContractors k v (rows k) ∧
        (∀ j, d'.sh.db.ofCard j =
          Function.update rows k (visitRows cfg c.sh.vContractors k v (rows k)) j) ∧
        d'.sh.vContractors = c.sh.vContractors ∧ Notified c d')
      (fun _ _ => ¬VisitSafe cfg c.sh.vContractors k v (rows k)) d := by
  have hother := wp_forall fun j => wp_forall fun hj : j ≠ k =>
    @processCard_alone cfg _ _ v hj d
  apply wp_mono (wp_and (wp_and (processCard_rows (hrows k)) (processCard_thins d)) hother)
  · rintro _ d' ⟨⟨hvisit, hthin⟩, halone⟩
    have hsafe := hvisit.safe
    have hvisited := hvisit.rows
    rw [hcontractors] at hsafe hvisited
    refine ⟨hsafe, ?_, hvisited.contractors.trans hcontractors, ?_⟩
    · intro j
      by_cases hj : j = k
      · rw [hj, Function.update_self]
        exact hvisited.ofCard
      · rw [Function.update_of_ne hj, ← hrows]
        exact (halone j hj).shared.ofCard
    · obtain ⟨es, htrace, hes⟩ := hnotified
      obtain ⟨es', htrace', hseen⟩ := hvisit.trace hthin
      rw [hcontractors] at hseen
      refine ⟨es ++ es', by rw [htrace', htrace, List.append_assoc], ?_⟩
      intro s hs hunderway
      have hbefore (r : IssueRow) (hr : r ∈ d.sh.db.issues) (hkeys : r.keys = s.keys)
          (hr' : r.cardStatus = of "underway") (hid : r.contractorId = s.contractorId) :
          (∃ r ∈ c.sh.db.issues, r.keys = s.keys ∧ r.cardStatus = of "underway" ∧
            r.contractorId = s.contractorId) ∨
          ∃ x ∈ c.sh.vContractors, s.contractorId = itoa x.id ∧ assignmentNotice x.id ∈ es ++ es' := by
        rw [← hkeys, ← hid]
        exact (hes r hr hr').imp_right fun ⟨x, hx, hxid, hmem⟩ =>
          ⟨x, hx, hxid, List.mem_append_left _ hmem⟩
      by_cases hk : s.idCard = k
      · have hmem : s ∈ visitRows cfg c.sh.vContractors k v (rows k) := by
          rw [← hvisited.ofCard]
          exact Keyed.mem_rows.mpr ⟨hs, hk⟩
        rcases mem_visitRows hmem hunderway with ⟨r, hr, hkeys, hstatus, hid⟩ | ⟨x, hx, hid, hnotice⟩
        · rw [← hrows] at hr
          exact hbefore r (Keyed.mem_rows.mp hr).1 hkeys hstatus hid
        · rw [← hseen.mem_iff] at hnotice
          exact .inr ⟨x, hx, hid, List.mem_append_right _ (List.mem_filter.mp hnotice).1⟩
      · have hmem : s ∈ d'.sh.db.ofCard s.idCard := Keyed.mem_rows.mpr ⟨hs, rfl⟩
        rw [(halone s.idCard hk).shared.ofCard] at hmem
        exact hbefore s (Keyed.mem_rows.mp hmem).1 rfl hunderway rfl
  · rintro _ d' ⟨⟨hbroken, -⟩, -⟩
    have hbad := hbroken.unsafe_
    rw [hcontractors] at hbad
    exact hbad

theorem processEveryCard_notified (h : env.Unreached F cfg) (cards : List (Text × Nat))
    {rows : Text → List IssueRow} {d : Checker} (hrows : ∀ j, d.sh.db.ofCard j = rows j)
    (hcontractors : d.sh.vContractors = c.sh.vContractors) (hnotified : Notified c d) :
    wp (forEach cards fun (cardId, i) => processCard cfg cardId (env.card i))
      (fun _ d' => (∀ x ∈ passRecipients cfg c.sh.vContractors env cards rows, x ∉ F) ∧ Notified c d')
      (fun _ _ => ¬∀ x ∈ passRecipients cfg c.sh.vContractors env cards rows, x ∉ F) d := by
  induction cards generalizing rows d with
  | nil => exact ⟨fun _ hx => absurd hx List.not_mem_nil, hnotified⟩
  | cons card cards ih =>
    rw [forEach, wp_bind, passRecipients]
    apply wp_mono (processCard_notified (k := card.1) (v := env.card card.2) hrows hcontractors hnotified)
    · rintro _ d' ⟨hsafe, hrows', hcontractors', hnotified'⟩
      have hfirst := (visitSafe_iff (h card.2)).mp hsafe
      apply wp_mono (ih hrows' hcontractors' hnotified')
      · exact fun _ _ hrest => ⟨List.forall_mem_append.mpr ⟨hfirst, hrest.1⟩, hrest.2⟩
      · exact fun _ _ hrest hall => hrest (List.forall_mem_append.mp hall).2
    · exact fun _ _ hbad hall =>
        hbad ((visitSafe_iff (h card.2)).mpr (List.forall_mem_append.mp hall).1)

/-- Deleting the closed cards makes no row underway. -/
theorem Notified.swept {d d' : Checker} (h : Notified c d)
    (hswept : ∀ j, Swept env j d.vCardsToDelete d.sh d'.sh) : Notified c d' := by
  obtain ⟨es, htrace, hes⟩ := h
  obtain ⟨es', htrace', -⟩ := (hswept []).unseen
  refine ⟨es ++ es', by rw [htrace', htrace, List.append_assoc], ?_⟩
  intro s hs hunderway
  have hmem : s ∈ d'.sh.db.ofCard s.idCard := Keyed.mem_rows.mpr ⟨hs, rfl⟩
  have hmem' : s ∈ d.sh.db.issues := by
    rcases (hswept s.idCard).rows with hsame | hnil
    · rw [hsame] at hmem
      exact (Keyed.mem_rows.mp hmem).1
    · rw [hnil] at hmem
      cases hmem
  exact (hes s hmem' hunderway).imp_right fun ⟨x, hx, hid, hnotice⟩ =>
    ⟨x, hx, hid, List.mem_append_left _ hnotice⟩

theorem Begun.notified {c₁ : Checker} (h : Begun env c c₁) : Notified c c₁ := by
  obtain ⟨es, htrace, -⟩ := h.idle.unseen
  refine ⟨es, htrace, ?_⟩
  intro s hs hunderway
  rw [h.idle.db] at hs
  exact .inl ⟨s, hs, rfl, hunderway, rfl⟩

theorem checkTheList_notified (h : env.Unreached F cfg) :
    wp (checkTheList cfg env)
      (fun _ c' => (env.NoticeSafe c.sh.db ∧
        ∀ x ∈ passRecipients cfg c.sh.vContractors env (env.ids c.sh.db).zipIdx c.sh.db.ofCard, x ∉ F) ∧
        Notified c c')
      (fun _ _ => ¬(env.NoticeSafe c.sh.db ∧
        ∀ x ∈ passRecipients cfg c.sh.vContractors env (env.ids c.sh.db).zipIdx c.sh.db.ofCard, x ∉ F))
      c := by
  apply wp_checkTheList
  · intro c₁ hbegun hids
    have hnotice : env.NoticeSafe c.sh.db := fun hnone => absurd hnone hids
    have hloop := processEveryCard_notified (c := c) h (env.ids c.sh.db).zipIdx
      (fun j => (hbegun.idle.spared j).ofCard) hbegun.idle.contractors hbegun.notified
    rw [wp_bind, processEveryCard, wp_bind, wp_get, hbegun.ids]
    apply wp_mono hloop
    · intro _ c₂ h₂
      apply wp_mono (wp_forall fun j => @deleteCards_sweeps env j c₂)
      · exact fun _ c₃ h₃ => ⟨⟨hnotice, h₂.1⟩, h₂.2.swept fun j => (h₃ j).1⟩
      · exact fun _ _ h => (h []).elim
    · exact fun _ _ hbad hall => hbad hall.2
  · intro c₁ hbegun hnone hnotice
    refine ⟨⟨hnotice, ?_⟩, hbegun.notified⟩
    rw [hnone]
    exact fun _ hx => absurd hx List.not_mem_nil
  · exact fun _ _ _ hnotice hall => hnotice hall.1

/-- The pass runs to its end, and wherever it made a row underway it wrote to the contractor. -/
def Unspoiled (cfg : Config) (env : PassEnv) (c : Checker) : Prop :=
  failure (checkTheList cfg env) c = none ∧ Notified c (final (checkTheList cfg env) c)

/-- **Unreachable users do not spoil a pass exactly when it writes to none of them**: not to the
customer or the contractor of a card it assigns, not to the customer of a card it sends back. The
staff may be unreachable. Without any card there is only the notice to support. -/
theorem unspoiled_iff (h : env.Unreached F cfg) :
    Unspoiled cfg env c ↔ env.NoticeSafe c.sh.db ∧
      ∀ x ∈ passRecipients cfg c.sh.vContractors env (env.ids c.sh.db).zipIdx c.sh.db.ofCard, x ∉ F := by
  have hrun := wp_run (checkTheList_notified (c := c) h)
  unfold Unspoiled Program.failure final
  rw [wp] at hrun
  split at hrun
  next c' hc' =>
    exact ⟨fun _ => hrun.2.1, fun _ => ⟨rfl, hrun.2.2⟩⟩
  next x c' hc' =>
    exact ⟨fun hnone => (by cases hnone.1), fun hall => absurd hall hrun.2⟩

/-- The customer of a card that is not assigned need not be reachable. -/
theorem unspoiled_unassigned :
    Unspoiled {} (PassEnv.without {} 5 (.calm fun _ => .returns .failed))
      {sh := {db := {issues := [{idCard := of "c", cardStatus := of "pending", consumerId := of "5"}]}}} := by
  have hreached : passRecipients {} [] (PassEnv.without {} 5 (.calm fun _ => .returns .failed))
      [(of "c", 0)]
      (Db.ofCard {issues := [{idCard := of "c", cardStatus := of "pending", consumerId := of "5"}]}) = [] := by
    decide +kernel
  refine (unspoiled_iff (F := {5}) fun _ => ?_).mpr ⟨fun h => ?_, fun x hx => ?_⟩
  · exact CardEnv.unreached_without (fun _ => trivial) trivial
  · exact absurd h (by decide)
  · exact absurd (hreached ▸ hx) List.not_mem_nil

/-- The customer of a card just assigned cannot be reached: the row is underway, the contractor was
not written to, and the pass is over. -/
theorem spoiled_by_customer :
    ¬Unspoiled {}
      (PassEnv.without {} 5 (.calm fun _ => .returns (.answered 200 (some
        (.object [(of "closed", .bool false), (of "idList", .string (of "ivan"))])))))
      { sh :=
        { vContractors := [⟨7, of "Иван", of "ivan7", of "ivan"⟩]
          db :=
            { issues := [{idCard := of "c", cardStatus := of "pending", consumerId := of "5"}] } } } := by
  intro h
  exact absurd h.1 (by decide +kernel)

end

end Chanserv
