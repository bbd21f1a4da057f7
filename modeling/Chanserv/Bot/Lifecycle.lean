import Chanserv.Bot.Departures
import Chanserv.Program.Traces

/-! The life of an issue.

`Phase` says what the program is for: an issue is filed, waits, is somebody's, may be
handed back and given to another one, and ends; it ends once. The bot and the checker
do that with a table, in any order of their deeds, and every event of an issue's life
has its reason in what they did (`Deed.Causes`). -/
namespace Chanserv
open Text Program

/-! ### The purpose -/

/-- What there is to say of the issue of a number. -/
inductive Phase where
  | unfiled
  | waiting (origin : List Text)
  | held (origin holder : List Text)
  | gone
deriving DecidableEq

inductive Happening where
  | filed (origin : List Text)
  /-- The number is used up, by a row that nobody saw or by none. -/
  | skipped
  | given (holder : List Text)
  | handedBack
  | ended
deriving DecidableEq

inductive Phase.Next : Phase → Happening → Phase → Prop
  | filed {origin} : Next .unfiled (.filed origin) (.waiting origin)
  | skipped : Next .unfiled .skipped .gone
  | given {origin holder} : Next (.waiting origin) (.given holder) (.held origin holder)
  | passedOn {origin holder holder'} : Next (.held origin holder) (.given holder') (.held origin holder')
  | handedBack {origin holder} : Next (.held origin holder) .handedBack (.waiting origin)
  | withdrawn {origin} : Next (.waiting origin) .ended .gone
  | done {origin holder} : Next (.held origin holder) .ended .gone

/-- Who has the issue after an event. -/
def Happening.passes (holder : Option (List Text)) : Happening → Option (List Text)
  | given holder => some holder
  | handedBack => none
  | _ => holder

def holderAfter (es : List Happening) : Option (List Text) := es.foldl Happening.passes none

/-- The issue goes from one to the other. -/
def Happening.Moves : Happening → Prop
  | given _ | handedBack => True
  | _ => False

/-- Where an issue stands after what happened to it. -/
inductive Phase.Story : List Happening → Phase → Prop
  | unfiled : Story [] .unfiled
  | skipped : Story [.skipped] .gone
  | filed {origin es} (hes : ∀ e ∈ es, e.Moves) :
      Story (.filed origin :: es) ((holderAfter es).elim (.waiting origin) (.held origin))
  | ended {origin es} (hes : ∀ e ∈ es, e.Moves) : Story (.filed origin :: es ++ [.ended]) .gone

theorem Phase.Story.next {es : List Happening} {p p' : Phase} {e : Happening} (h : Phase.Story es p)
    (hnext : Phase.Next p e p') : Phase.Story (es ++ [e]) p' := by
  have hmoves {origin : List Text} {es : List Happening} (hes : ∀ e ∈ es, e.Moves) (he : e.Moves) :
      Phase.Story (.filed origin :: es ++ [e]) ((e.passes (holderAfter es)).elim (.waiting origin) (.held origin)) := by
    have hlast : e.passes (holderAfter es) = holderAfter (es ++ [e]) := by
      rw [holderAfter, holderAfter, List.foldl_concat]
    rw [hlast]
    refine .filed fun e' he' => ?_
    rcases List.mem_append.mp he' with he' | he'
    · exact hes e' he'
    · exact List.mem_singleton.mp he' ▸ he
  cases h with
  | unfiled =>
    cases hnext with
    | @filed origin =>
      have hnone : ∀ e ∈ ([] : List Happening), e.Moves := List.forall_mem_nil _
      exact .filed hnone
    | skipped => exact .skipped
  | skipped => cases hnext
  | ended => cases hnext
  | @filed origin es hes =>
    cases hholder : holderAfter es with
    | none =>
      rw [hholder] at hnext
      cases hnext with
      | given => exact hmoves hes trivial
      | withdrawn => exact .ended hes
    | some holder =>
      rw [hholder] at hnext
      cases hnext with
      | passedOn => exact hmoves hes trivial
      | handedBack => exact hmoves hes trivial
      | done => exact .ended hes

/-! ### The table -/

/-- What a row says of its issue. -/
def IssueRow.phase (r : IssueRow) : Phase :=
  if r.contractorId = [] then .waiting r.origin else .held r.origin r.holder

/-- What the table says of a number. -/
def Db.phase (db : Db) (n : Int) : Phase :=
  match db.issues.find? fun r => r.id = n with
  | some r => r.phase
  | none => if n < db.nextIssueId then .gone else .unfiled

/-- Why a deed makes something happen to the issue of a number. -/
inductive Deed.Causes (cfg : Config) (n : Int) (w : World) : Deed → Happening → Prop
  | filed {env : UpdateEnv} {m : Message} {origin : List Text} (hn : w.sh.db.nextIssueId ≤ n) :
      Causes cfg n w (.update env (.message m)) (.filed origin)
  | skipped {d : Deed} (hn : w.sh.db.nextIssueId ≤ n) : Causes cfg n w d .skipped
  | given {c : Checker} {env : CardEnv} {r : IssueRow} {contractor : Contractor} (hr : r ∈ w.sh.db.issues)
      (hn : r.id = n) (hc : contractor ∈ c.sh.vContractors) (hcolumn : env.InColumn r.idCard contractor.trelloList) :
      Causes cfg n w (.inspected (.visit c r.idCard env)) (.given contractor.holding)
  | handedBack {c : Checker} {env : CardEnv} {r : IssueRow} (hr : r ∈ w.sh.db.issues) (hn : r.id = n)
      (hback : env.HandsBack cfg r.idCard (w.sh.db.ofCard r.idCard)) :
      Causes cfg n w (.inspected (.visit c r.idCard env)) .handedBack
  | ended {d : Deed} {r : IssueRow} (hr : r ∈ w.sh.db.issues) (hn : r.id = n) (htakes : d.Takes cfg w r.idCard) :
      Causes cfg n w d .ended

section
variable {cfg : Config} {w : World} {db : Db} {n : Int} {r r' : IssueRow}

theorem Db.phase_row (h : db.ledger.InOrder IssueRow.id) (hr : r ∈ db.issues) (hn : r.id = n) : db.phase n = r.phase := by
  rw [Db.phase]
  cases hfind : db.issues.find? fun r => r.id = n with
  | none => exact absurd (decide_eq_true hn) (List.find?_eq_none.mp hfind r hr)
  | some s =>
    have hs : s.id = n := of_decide_eq_true (List.find?_some (p := fun r : IssueRow => decide (r.id = n)) hfind)
    rw [h.eq_of_number (List.mem_of_find?_eq_some hfind) hr (hs.trans hn.symm)]

theorem Db.phase_none (h : ¬∃ r ∈ db.issues, r.id = n) :
    db.phase n = if n < db.nextIssueId then .gone else .unfiled := by
  rw [Db.phase, List.find?_eq_none.mpr fun r hr => by simpa using fun hn => h ⟨r, hr, hn⟩]

theorem IssueRow.phase_same (horigin : r'.origin = r.origin) (hholder : r'.holder = r.holder) : r'.phase = r.phase := by
  rw [IssueRow.phase, IssueRow.phase, IssueRow.contractorId_of_holder hholder, horigin, hholder]

theorem IssueRow.phase_held {contractor : Contractor} (hholder : r.holder = contractor.holding) :
    r.phase = .held r.origin contractor.holding := by
  have hid : r.contractorId ≠ [] := by
    simp only [IssueRow.holder, Contractor.holding, List.cons.injEq] at hholder
    rw [hholder.2.2.2.1]
    exact itoa_ne_nil _
  rw [IssueRow.phase, if_neg hid, hholder]

/-- A row that was at a visit. -/
theorem Passes.phase {c : Checker} {env : CardEnv} (hr : r ∈ w.sh.db.issues)
    (h : Passes cfg c.sh.vContractors r.idCard env (w.sh.db.ofCard r.idCard) r r') :
    r'.phase = r.phase ∨ ∃ e, Deed.Causes cfg r.id w (.inspected (.visit c r.idCard env)) e ∧
      Phase.Next r.phase e r'.phase := by
  rcases h.holder with hsame | ⟨hnobody, hback⟩ | ⟨contractor, hc, hcolumn, hholding⟩
  · exact .inl (IssueRow.phase_same h.origin hsame)
  · have hwaits : r'.phase = .waiting r.origin := by rw [IssueRow.phase, if_pos hnobody, h.origin]
    by_cases hid : r.contractorId = []
    · rw [hwaits, IssueRow.phase, if_pos hid]
      exact .inl rfl
    · rw [hwaits, IssueRow.phase, if_neg hid]
      exact .inr ⟨_, .handedBack hr rfl hback, .handedBack⟩
  · rw [IssueRow.phase_held hholding, h.origin]
    refine .inr ⟨_, .given hr rfl hc hcolumn, ?_⟩
    rw [IssueRow.phase]
    split
    · exact .given
    · exact .passedOn

/-- A deed leaves an issue as it is, or one thing happens to it, for a reason. -/
theorem Deed.after_phase (d : Deed) (n : Int) (h : w.sh.db.ledger.InOrder IssueRow.id) :
    (d.after cfg w).sh.db.phase n = w.sh.db.phase n ∨
      ∃ e, d.Causes cfg n w e ∧ Phase.Next (w.sh.db.phase n) e ((d.after cfg w).sh.db.phase n) := by
  have hbooks : Books CardEdit w.sh (d.after cfg w).sh := d.after_books w
  have horder := hbooks.inOrder (fun _ hf r => (CardEdit.fixed hf r).1) h
  have hlater : Numbered.Later IssueRow.id IssueRow.origin w.sh.db.ledger (d.after cfg w).sh.db.ledger :=
    hbooks.later fun _ hf r => CardEdit.fixed hf r
  have hnext : w.sh.db.nextIssueId ≤ (d.after cfg w).sh.db.nextIssueId := hlater.next
  by_cases hthere : ∃ r ∈ w.sh.db.issues, r.id = n
  · obtain ⟨r, hr, rfl⟩ := hthere
    have hbelow : r.id < w.sh.db.nextIssueId := h.below r hr
    rw [Db.phase_row h hr rfl]
    by_cases hstill : ∃ r' ∈ (d.after cfg w).sh.db.issues, r'.id = r.id
    · obtain ⟨r', hr', hid⟩ := hstill
      rw [Db.phase_row horder hr' hid]
      rcases d.after_row hr' with ⟨s, hs, hsid, horigin, hholder⟩ | ⟨hnew, -⟩ | ⟨s, hs, c, env, rfl, hpasses⟩
      · rw [h.eq_of_number hs hr (hsid.trans hid)] at horigin hholder
        exact .inl (IssueRow.phase_same horigin.symm hholder.symm)
      · omega
      · obtain rfl : s = r := h.eq_of_number hs hr (hpasses.id.symm.trans hid)
        exact hpasses.phase hs
    · rw [Db.phase_none hstill, if_pos (by omega)]
      have htakes : d.Takes cfg w r.idCard := by
        by_contra hspared
        obtain ⟨r', hr', hid, -⟩ := d.after_stays hr hspared
        exact hstill ⟨r', hr', hid⟩
      refine .inr ⟨.ended, .ended hr rfl htakes, ?_⟩
      rw [IssueRow.phase]
      split
      · exact .withdrawn
      · exact .done
  · rw [Db.phase_none hthere]
    by_cases hstill : ∃ r' ∈ (d.after cfg w).sh.db.issues, r'.id = n
    · obtain ⟨r', hr', rfl⟩ := hstill
      rw [Db.phase_row horder hr' rfl]
      rcases d.after_row hr' with ⟨s, hs, hsid, -⟩ | ⟨hnew, hnobody, env, m, rfl⟩ | ⟨s, hs, _, _, -, hpasses⟩
      · exact absurd ⟨s, hs, hsid⟩ hthere
      · rw [if_neg (by omega), IssueRow.phase, if_pos hnobody]
        exact .inr ⟨_, .filed hnew, .filed⟩
      · exact absurd ⟨s, hs, hpasses.id.symm⟩ hthere
    · rw [Db.phase_none hstill]
      by_cases hold : n < w.sh.db.nextIssueId
      · rw [if_pos hold, if_pos (by omega)]
        exact .inl rfl
      · rw [if_neg hold]
        by_cases hused : n < (d.after cfg w).sh.db.nextIssueId
        · rw [if_pos hused]
          exact .inr ⟨.skipped, .skipped (by omega), .skipped⟩
        · rw [if_neg hused]
          exact .inl rfl

/-! ### Over all lives -/

/-- The table refines its purpose. -/
theorem deeds_refine (n : Int) : Refines (fun w : World => w.sh.db.ledger.InOrder IssueRow.id) (Deed.after cfg)
    (fun w d e => d.Causes cfg n w e) Phase.Next (fun w => w.sh.db.phase n) where
  keeps _ d h := World.lived_inOrder h [d]
  step _ d h := d.after_phase n h

/-- **The table does what it is for.** However the bot, its restarts and the checker follow one another, what the
table says of a number goes the way of an issue, and whatever happens to it has its reason in the deed at which it
happens. -/
theorem issue_lifecycle (h : w.sh.db.ledger.InOrder IssueRow.id) (n : Int) (ds : List Deed) :
    ∃ es, Tells (Deed.after cfg) (fun w d e => d.Causes cfg n w e) w ds es ∧
      Reads Phase.Next (w.sh.db.phase n) es ((w.lived cfg ds).sh.db.phase n) :=
  (deeds_refine n).tells ds h

/-- **The story of a number.** It is filed at most once, first, is given and handed back any number of times, whose
it is being what happened last, and ends at most once, for good. -/
theorem issue_story (h : w.sh.db.ledger.InOrder IssueRow.id) {n : Int} (hn : w.sh.db.nextIssueId ≤ n)
    (ds : List Deed) :
    ∃ es, Tells (Deed.after cfg) (fun w d e => d.Causes cfg n w e) w ds es ∧
      Phase.Story es ((w.lived cfg ds).sh.db.phase n) := by
  have hunfiled : ¬∃ r ∈ w.sh.db.issues, r.id = n := by
    rintro ⟨r, hr, hid⟩
    have hbelow : r.id < w.sh.db.nextIssueId := h.below r hr
    omega
  obtain ⟨es, htells, hreads⟩ := (deeds_refine n).tells ds h
  refine ⟨es, htells, hreads.invariant (I := Phase.Story) ?_ fun _ _ _ _ => Phase.Story.next⟩
  rw [Db.phase_none hunfiled, if_neg (by omega)]
  exact .unfiled

end

/-- 3 is given issue 300 and ends it. -/
theorem issue_lifecycle_ended : (filed300.lived rework ended3).sh.db.phase 300 = .gone ∧
    ∃ es, Tells (Deed.after rework) (fun w d e => d.Causes rework 300 w e) filed300 ended3 es ∧
      Reads Phase.Next (filed300.sh.db.phase 300) es ((filed300.lived rework ended3).sh.db.phase 300) := by
  have horder : filed300.sh.db.ledger.InOrder IssueRow.id := ⟨by decide +kernel, by decide +kernel⟩
  have hgone : (filed300.lived rework ended3).sh.db.phase 300 = .gone := by decide +kernel
  exact ⟨hgone, issue_lifecycle horder 300 ended3⟩

/-- 3 files a task for a family. -/
def filed3 : List Deed :=
  [ .update (.calm 0) (startFrom 3), .update (.calm 0) (clickFrom 3 "new_family"), .update (.calm 0) (textFrom 3 "Окно"),
    .update (.calm 0) (textFrom 3 "Двери"), .update (.calm 0) (textFrom 3 "Нет створки"),
    .update (.calm 0) (textFrom 3 "Кампус"), .update (.calm 0) (clickFrom 3 "no_more_photos"),
    .update (.calm 0) (textFrom 3 "Иван") ]

def nothingYet : World := {}

theorem issue_story_filed : (nothingYet.lived {} filed3).sh.db.issues.map IssueRow.id = [300] ∧
    ∃ es, Tells (Deed.after {}) (fun w d e => d.Causes {} 300 w e) nothingYet filed3 es ∧
      Phase.Story es ((nothingYet.lived {} filed3).sh.db.phase 300) := by
  have horder : nothingYet.sh.db.ledger.InOrder IssueRow.id := ⟨by decide +kernel, by decide +kernel⟩
  exact ⟨by decide +kernel, issue_story horder (by decide +kernel) filed3⟩

end Chanserv
