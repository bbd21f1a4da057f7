import Chanserv.Jira
import Chanserv.Program.Traces

/-! Mails to assignees over the life of a process.

A webhook comes with every change of an issue; a mail is to go out when the assignee
is another than before. What was before is what Jira last said about the issue, and an
answer that failed says nothing. The map of assignees holds just that as long as Jira
gives addresses as texts: a property tree makes a text of `null`, too. -/
namespace Chanserv
open Text Program

def Effect.isEmail : Effect → Bool
  | .sendEmail _ _ => true
  | _ => false

/-- A webhook, the answers of the world to it, and the state it came in. -/
structure Webhook where
  issueKey : Text
  env : TaskInfoEnv
  before : Shared

/-- What Jira's answer has at `fields.assignee.emailAddress`. -/
def addressOf (v : Json.Value) : Option Json.Value :=
  ((v.at (of "fields")).bind (·.at (of "assignee"))).bind (·.at (of "emailAddress"))

/-- The address of the assignee, which is a text; without one there is none to write to. -/
def mailAddress (v : Json.Value) : Text := ((addressOf v).bind Json.Value.toText).getD []

/-- Neither a text nor made of others: `null`, a truth value, a number. -/
def Json.Value.isBare : Json.Value → Bool
  | .null | .bool _ | .number _ => true
  | _ => false

/-- The code and its specification read the same address, unless something bare stands there. -/
theorem assigneeEmail_eq {v : Json.Value} (h : ∀ node ∈ addressOf v, node.isBare = false) :
    assigneeEmail v = mailAddress v := by
  unfold assigneeEmail mailAddress
  unfold addressOf at h ⊢
  generalize ((v.at (of "fields")).bind (·.at (of "assignee"))).bind (·.at (of "emailAddress")) = node at h ⊢
  cases node with
  | none => rfl
  | some n =>
    have hbare := h n rfl
    cases n with
    | string | array | object => rfl
    | null | bool | number => cases hbare

namespace Webhook

/-- The address Jira gives, which is empty for no assignee; nothing where the request failed
or its answer was not understood. -/
def answer (h : Webhook) : Option Text :=
  match h.env.issue with
  | .returns (.answered status (some v)) => if isSuccess status then some (mailAddress v) else none
  | _ => none

/-- If anything stands for the address in Jira's answer, it is a text, or made of others. -/
def Readable (h : Webhook) : Prop :=
  match h.env.issue with
  | .returns (.answered status (some v)) => isSuccess status → ∀ node ∈ addressOf v, node.isBare = false
  | _ => True

def after (cfg : Config) (h : Webhook) : Shared := final (getTaskInfo cfg h.issueKey h.env) h.before

/-- The mails sent for a webhook. -/
def mails (cfg : Config) (h : Webhook) : List Effect :=
  ((h.after cfg).trace.drop h.before.trace.length).filter Effect.isEmail

/-- What a process does: webhooks one after the other, and other things in between. The map is
private to `jira_api`, nothing else writes it. -/
inductive Step (cfg : Config) : Shared → List Webhook → Shared → Prop
  | handled (h : Webhook) : Step cfg h.before [h] (h.after cfg)
  | other {s s' : Shared} (h : s'.mNotifiedAssignee = s.mNotifiedAssignee) : Step cfg s [] s'

/-- What Jira last said about an issue. -/
def lastAnswer (issueKey : Text) (hist : List Webhook) : Option Text :=
  ((hist.filter fun h => h.issueKey = issueKey).filterMap answer).getLast?

/-- The answer has an address, and the last one about the issue had none, or another one. -/
def Assigns (hist : List Webhook) (h : Webhook) (email : Text) : Prop :=
  h.answer = some email ∧ email ≠ [] ∧
    ∀ earlier, lastAnswer h.issueKey hist = some earlier →
      earlier = [] ∨ earlier.map Char.toLower ≠ email.map Char.toLower

/-- What a webhook is to lead to after others: a mail for an answer with an address which the last answer about
the issue did not have, and no other mail. An answer that failed leaves the map as it was, and every answer
what is remembered of other issues. -/
structure Mailed (cfg : Config) (earlier : List Webhook) (h : Webhook) : Prop where
  sent : ∀ email, Assigns earlier h email → h.mails cfg = [.sendEmail email (cfg.jiraBrowseUrl ++ h.issueKey)]
  unsent : (∀ email, ¬Assigns earlier h email) → h.mails cfg = []
  failed : h.answer = none → (h.after cfg).mNotifiedAssignee = h.before.mNotifiedAssignee
  others : ∀ k e, k ≠ h.issueKey → ((k, e) ∈ (h.after cfg).mNotifiedAssignee ↔ (k, e) ∈ h.before.mNotifiedAssignee)

/-- The map has the addresses last heard of. -/
def Remembered (hist : List Webhook) (s : Shared) : Prop :=
  ∀ issueKey e, (issueKey, e) ∈ s.mNotifiedAssignee ↔
    ∃ email, lastAnswer issueKey hist = some email ∧ email ≠ [] ∧ email.map Char.toLower = e

end Webhook

/-! ### One webhook -/

section
variable {notified : List (Text × Text)} {issueKey email : Text}

/-- Where an issue has one assignee, it has the new one afterwards; other issues keep theirs. -/
theorem mem_rememberAssignee (hone : ∀ a b, (issueKey, a) ∈ notified → (issueKey, b) ∈ notified → a = b)
    (k e : Text) : (k, e) ∈ (rememberAssignee notified issueKey email).2 ↔
      if k = issueKey then email ≠ [] ∧ email.map Char.toLower = e else (k, e) ∈ notified := by
  have hothers : (k, e) ∈ notified.filter (fun entry => entry.1 ≠ issueKey) ↔ (k, e) ∈ notified ∧ k ≠ issueKey := by
    rw [List.mem_filter, decide_eq_true_eq]
  unfold rememberAssignee
  dsimp only
  by_cases hemail : email.map Char.toLower = []
  · have hnone : email = [] := List.map_eq_nil_iff.mp hemail
    rw [if_pos hemail, hothers]
    by_cases hk : k = issueKey <;> simp [hk, hnone]
  · have hsome : email ≠ [] := fun h => hemail (List.map_eq_nil_iff.mpr h)
    rw [if_neg hemail]
    by_cases hknown : (issueKey, email.map Char.toLower) ∈ notified
    · rw [if_pos hknown]
      by_cases hk : k = issueKey
      · subst hk
        rw [if_pos rfl]
        constructor
        · exact fun h => ⟨hsome, hone _ _ hknown h⟩
        · rintro ⟨-, rfl⟩
          exact hknown
      · rw [if_neg hk]
    · rw [if_neg hknown, List.mem_cons, hothers, Prod.mk.injEq]
      by_cases hk : k = issueKey
      · simp [hk, hsome, eq_comm]
      · simp [hk]

theorem rememberAssignee_isNew :
    (rememberAssignee notified issueKey email).1 = true ↔
      email ≠ [] ∧ (issueKey, email.map Char.toLower) ∉ notified := by
  unfold rememberAssignee
  dsimp only
  by_cases hemail : email.map Char.toLower = []
  · rw [if_pos hemail]
    simp [List.map_eq_nil_iff.mp hemail]
  · have hsome : email ≠ [] := fun h => hemail (List.map_eq_nil_iff.mpr h)
    rw [if_neg hemail]
    by_cases hknown : (issueKey, email.map Char.toLower) ∈ notified
    · rw [if_pos hknown]
      simp [hknown]
    · rw [if_neg hknown]
      simp [hknown, hsome]

end

namespace Webhook
variable {cfg : Config} {h : Webhook} {email : Text}

/-- An answer that failed: no mail, and nothing is remembered. -/
theorem of_failed (hanswer : h.answer = none) :
    h.mails cfg = [] ∧ (h.after cfg).mNotifiedAssignee = h.before.mNotifiedAssignee := by
  obtain ⟨issueKey, env, s⟩ := h
  have hrun : wp (getTaskInfo cfg issueKey env)
      (fun _ s' => s' = s.log (.getTaskInfo issueKey)) (fun _ s' => s' = s.log (.getTaskInfo issueKey)) s := by
    rw [getTaskInfo, wp_bind, wp_call]
    refine ⟨fun reply hreply => ?_, fun _ _ => rfl⟩
    cases reply with
    | noHandle | failed => rfl
    | answered status body =>
      dsimp only
      cases hstatus : isSuccess status with
      | false =>
        rw [Bool.not_false, if_pos rfl]
        rfl
      | true =>
        rw [Bool.not_true, if_neg Bool.false_ne_true]
        cases body with
        | none => rfl
        | some v =>
          simp only [answer, hreply, hstatus] at hanswer
          cases hanswer
  have hafter := of_wp (P := fun _ s' => s' = s.log (.getTaskInfo issueKey)) hrun
  rw [mails, after, hafter]
  refine ⟨?_, rfl⟩
  rw [Shared.log, List.drop_left]
  rfl

theorem answer_eq_some (hread : h.Readable) (hanswer : h.answer = some email) : ∃ status v,
    h.env.issue = .returns (.answered status (some v)) ∧ isSuccess status = true ∧ assigneeEmail v = email := by
  unfold answer at hanswer
  split at hanswer
  · rename_i status v hissue
    split at hanswer
    · rename_i hstatus
      rw [Readable, hissue] at hread
      exact ⟨status, v, hissue, hstatus, (assigneeEmail_eq (hread hstatus)).trans (Option.some.inj hanswer)⟩
    · cases hanswer
  · cases hanswer

/-- What the understood answer is remembered as, and what the trace shows of it. -/
theorem getTaskInfo_understood {issueKey : Text} {env : TaskInfoEnv} {s : Shared} {status : Nat} {v : Json.Value}
    {found : Bool} (hissue : env.issue = .returns (.answered status (some v))) (hstatus : isSuccess status = true)
    (hfound : env.selectContractor = .returns found) :
    wp (getTaskInfo cfg issueKey env)
      (fun _ s' =>
        s'.mNotifiedAssignee = (rememberAssignee s.mNotifiedAssignee issueKey (assigneeEmail v)).2 ∧
        s'.trace = s.trace ++ .getTaskInfo issueKey ::
          if (rememberAssignee s.mNotifiedAssignee issueKey (assigneeEmail v)).1 then
            [.selectRows, .sendEmail (assigneeEmail v) (cfg.jiraBrowseUrl ++ issueKey)] else [])
      (fun _ _ => False) s := by
  rw [getTaskInfo, hissue, hfound, wp_bind, wp_call]
  refine ⟨fun reply hreply => ?_, fun _ hthrow => by cases hthrow⟩
  cases hreply
  dsimp only
  rw [hstatus, Bool.not_true, if_neg Bool.false_ne_true, wp_bind, wp_get, wp_bind, wp_modify, wp_bind, wp_guarded]
  constructor
  · intro hisNew
    have hisNew : (rememberAssignee s.mNotifiedAssignee issueKey (assigneeEmail v)).1 = true := hisNew
    rw [wp_catching, wp_bind, wp_call, hisNew]
    refine ⟨fun _ _ => ?_, fun _ hthrow => by cases hthrow⟩
    have htrace : (s.trace ++ [.getTaskInfo issueKey]) ++ [.selectRows] ++
        [.sendEmail (assigneeEmail v) (cfg.jiraBrowseUrl ++ issueKey)] = s.trace ++ .getTaskInfo issueKey ::
          [.selectRows, .sendEmail (assigneeEmail v) (cfg.jiraBrowseUrl ++ issueKey)] := by
      simp only [List.append_assoc, List.cons_append, List.nil_append]
    rw [wp_call]
    exact ⟨fun _ _ => ⟨rfl, htrace⟩, fun _ _ => ⟨rfl, htrace⟩⟩
  · intro hknown
    have hknown : ¬(rememberAssignee s.mNotifiedAssignee issueKey (assigneeEmail v)).1 = true := hknown
    rw [if_neg hknown]
    exact ⟨rfl, rfl⟩

/-- An answer that is understood: the assignee is remembered, and mailed when he is new. -/
theorem of_answered (hdb : h.env.selectContractor.Normal) (hread : h.Readable) (hanswer : h.answer = some email) :
    h.mails cfg = (if (rememberAssignee h.before.mNotifiedAssignee h.issueKey email).1 then
      [.sendEmail email (cfg.jiraBrowseUrl ++ h.issueKey)] else []) ∧
    (h.after cfg).mNotifiedAssignee = (rememberAssignee h.before.mNotifiedAssignee h.issueKey email).2 := by
  obtain ⟨status, v, hissue, hstatus, rfl⟩ := answer_eq_some hread hanswer
  obtain ⟨issueKey, env, s⟩ := h
  dsimp only at hdb hissue ⊢
  obtain ⟨found, hfound⟩ : ∃ found, env.selectContractor = .returns found := by
    cases hselect : env.selectContractor with
    | returns found => exact ⟨found, rfl⟩
    | throws x =>
      rw [hselect] at hdb
      cases hdb
  have hrun := @getTaskInfo_understood cfg issueKey env s status v found hissue hstatus hfound
  obtain ⟨hnotified, htrace⟩ := of_wp (P := fun _ (s' : Shared) =>
    s'.mNotifiedAssignee = (rememberAssignee s.mNotifiedAssignee issueKey (assigneeEmail v)).2 ∧
      s'.trace = s.trace ++ .getTaskInfo issueKey ::
        if (rememberAssignee s.mNotifiedAssignee issueKey (assigneeEmail v)).1 then
          [.selectRows, .sendEmail (assigneeEmail v) (cfg.jiraBrowseUrl ++ issueKey)] else [])
    (wp_mono hrun (fun _ _ h => h) fun _ _ h => h.elim)
  rw [mails, after, hnotified, htrace, List.drop_left]
  refine ⟨?_, rfl⟩
  cases (rememberAssignee s.mNotifiedAssignee issueKey (assigneeEmail v)).1 <;> rfl

/-! ### The map and the history -/

theorem lastAnswer_concat (issueKey : Text) (hist : List Webhook) (h : Webhook) :
    lastAnswer issueKey (hist ++ [h]) =
      if h.issueKey = issueKey then h.answer.or (lastAnswer issueKey hist) else lastAnswer issueKey hist := by
  unfold lastAnswer
  rw [List.filter_append, List.filterMap_append]
  by_cases hkey : h.issueKey = issueKey
  · rw [if_pos hkey, List.filter_cons_of_pos (by simpa using hkey), List.filter_nil, List.filterMap_cons]
    cases h.answer with
    | none => simp
    | some email => simp
  · rw [if_neg hkey, List.filter_cons_of_neg (by simpa using hkey), List.filter_nil, List.filterMap_nil,
      List.append_nil]

theorem Remembered.one {hist : List Webhook} {s : Shared} (hmap : Remembered hist s) {issueKey a b : Text}
    (ha : (issueKey, a) ∈ s.mNotifiedAssignee) (hb : (issueKey, b) ∈ s.mNotifiedAssignee) : a = b := by
  obtain ⟨email, hlast, -, rfl⟩ := (hmap issueKey a).mp ha
  obtain ⟨email', hlast', -, rfl⟩ := (hmap issueKey b).mp hb
  obtain rfl := Option.some.inj (hlast.symm.trans hlast')
  rfl

/-- A webhook puts into the map what it adds to the history. -/
theorem Remembered.handled {hist : List Webhook} (hmap : Remembered hist h.before)
    (hdb : h.env.selectContractor.Normal) (hread : h.Readable) : Remembered (hist ++ [h]) (h.after cfg) := by
  intro k e
  rw [lastAnswer_concat]
  cases hanswer : h.answer with
  | none =>
    rw [(of_failed hanswer).2, Option.none_or, ite_self]
    exact hmap k e
  | some email =>
    rw [(of_answered hdb hread hanswer).2, mem_rememberAssignee (fun _ _ => hmap.one), Option.some_or]
    by_cases hk : k = h.issueKey
    · rw [if_pos hk, if_pos hk.symm]
      simp only [Option.some.injEq, exists_eq_left']
    · rw [if_neg hk, if_neg (Ne.symm hk)]
      exact hmap k e

/-- What the map decides is what the history says. -/
theorem Remembered.mails {hist : List Webhook} (hmap : Remembered hist h.before)
    (hdb : h.env.selectContractor.Normal) (hread : h.Readable) :
    (∀ email, Assigns hist h email → h.mails cfg = [.sendEmail email (cfg.jiraBrowseUrl ++ h.issueKey)]) ∧
      ((∀ email, ¬Assigns hist h email) → h.mails cfg = []) := by
  have hisNew {email : Text} (hanswer : h.answer = some email) :
      (rememberAssignee h.before.mNotifiedAssignee h.issueKey email).1 = true ↔ Assigns hist h email := by
    rw [rememberAssignee_isNew, hmap, Assigns, and_iff_right hanswer]
    refine and_congr_right fun hemail => ?_
    constructor
    · intro hno earlier hearlier
      by_cases hempty : earlier = []
      · exact .inl hempty
      · exact .inr fun hsame => hno ⟨earlier, hearlier, hempty, hsame⟩
    · rintro hnew ⟨earlier, hearlier, hempty, hsame⟩
      rcases hnew earlier hearlier with h | h
      · exact hempty h
      · exact h hsame
  constructor
  · intro email hassigns
    rw [(of_answered hdb hread hassigns.1).1, if_pos ((hisNew hassigns.1).mpr hassigns)]
  · intro hno
    cases hanswer : h.answer with
    | none => exact (of_failed hanswer).1
    | some email => rw [(of_answered hdb hread hanswer).1, if_neg fun hnew => hno email ((hisNew hanswer).mp hnew)]

/-- **Mails on assignment.** Over all histories in which Jira gives addresses as texts. The SELECT of the contractor
reports what fails by its result. -/
theorem mail_on_assignment {s₀ s : Shared} {hist : List Webhook} (hr : Runs (Step cfg) s₀ hist s)
    (hstart : s₀.mNotifiedAssignee = []) (hdb : ∀ h ∈ hist, h.env.selectContractor.Normal)
    (hread : ∀ h ∈ hist, h.Readable) :
    ∀ earlier h later, hist = earlier ++ h :: later → Mailed cfg earlier h := by
  have hmap : ∀ earlier h later, hist = earlier ++ h :: later → Remembered earlier h.before := by
    have hall := hr.invariant (I := fun hist s => (∀ h ∈ hist, h.env.selectContractor.Normal ∧ h.Readable) →
      Remembered hist s ∧ ∀ earlier h later, hist = earlier ++ h :: later → Remembered earlier h.before) ?_ ?_
    · exact (hall fun h hh => ⟨hdb h hh, hread h hh⟩).2
    · intro _
      refine ⟨fun k e => ?_, fun _ _ _ hsplit => ?_⟩
      · rw [hstart]
        simp [lastAnswer]
      · exact absurd hsplit (by simp)
    · intro es s es' s' hi hs hgood
      obtain ⟨hmap, hall⟩ := hi fun h hh => hgood h (List.mem_append_left _ hh)
      cases hs with
      | handled h =>
        obtain ⟨hnormal, hreadable⟩ := hgood h (List.mem_append_right _ (List.mem_singleton_self h))
        exact ⟨hmap.handled hnormal hreadable, forall_split_concat.mpr ⟨hall, hmap⟩⟩
      | other hsame =>
        rw [List.append_nil]
        refine ⟨fun k e => ?_, hall⟩
        rw [hsame]
        exact hmap k e
  intro earlier h later hsplit
  have hbefore := hmap earlier h later hsplit
  have hmem : h ∈ hist := by rw [hsplit]; simp
  have hnormal := hdb h hmem
  have hreadable := hread h hmem
  obtain ⟨hsent, hunsent⟩ := hbefore.mails hnormal hreadable
  refine ⟨hsent, hunsent, fun hfailed => (of_failed hfailed).2, ?_⟩
  intro k e hk
  cases hanswer : h.answer with
  | none => rw [(of_failed hanswer).2]
  | some email => rw [(of_answered hnormal hreadable hanswer).2, mem_rememberAssignee (fun _ _ => hbefore.one), if_neg hk]

/-! ### A history -/

/-- Jira's answer for an assignee with this at his address. -/
def assignedTo (emailAddress : Json.Value) : TaskInfoEnv :=
  { issue := .returns (.answered 200 (some (.object [(of "fields", .object [(of "assignee",
      .object [(of "emailAddress", emailAddress)])])])))
    selectContractor := .returns true
    sendEmail := .returns () }

/-- The issue is assigned, and changed once more by others. -/
def assigned : Webhook := ⟨of "A-1", assignedTo (.string (of "Petrov@x.org")), {}⟩

def changed : Webhook := ⟨of "A-1", assignedTo (.string (of "petrov@x.org")), assigned.after {}⟩

theorem mail_on_assignment_changed :
    assigned.mails {} = [.sendEmail (of "Petrov@x.org") (of "A-1")] ∧ changed.mails {} = [] := by
  have hr : Runs (Step {}) {} [assigned] (assigned.after {}) := .step .start (.handled assigned)
  have hr' : Runs (Step {}) {} [assigned, changed] (changed.after {}) := hr.step (.handled changed)
  have hread : ∀ h ∈ [assigned, changed], h.Readable := by
    refine List.forall_mem_cons.mpr ⟨fun _ node hnode => ?_, List.forall_mem_singleton.mpr fun _ node hnode => ?_⟩
    · obtain rfl : Json.Value.string _ = node := Option.some.inj hnode
      rfl
    · obtain rfl : Json.Value.string _ = node := Option.some.inj hnode
      rfl
  have hlaw := mail_on_assignment hr' rfl (by decide +kernel) hread
  refine ⟨(hlaw [] assigned [changed] rfl).sent (of "Petrov@x.org") ?_, (hlaw [assigned] changed [] rfl).unsent ?_⟩
  · exact ⟨by decide +kernel, by decide +kernel, fun _ hnone => by cases hnone⟩
  · rintro email ⟨hanswer, -, hnew⟩
    obtain rfl : of "petrov@x.org" = email := Option.some.inj ((by decide +kernel : changed.answer = _).symm.trans hanswer)
    rcases hnew (of "Petrov@x.org") (by decide +kernel) with hempty | hother
    · cases hempty
    · exact hother (by decide +kernel)

/-- The assignee keeps his address to himself. -/
def withheld : Webhook := ⟨of "A-1", assignedTo .null, {}⟩

/-- A mail goes to null. -/
theorem mail_without_address : ¬∀ (cfg : Config) (s₀ s : Shared) (hist : List Webhook), Runs (Step cfg) s₀ hist s →
    s₀.mNotifiedAssignee = [] → (∀ h ∈ hist, h.env.selectContractor.Normal) →
    ∀ earlier h later, hist = earlier ++ h :: later → Mailed cfg earlier h := by
  intro h
  have hr : Runs (Step {}) {} [withheld] (withheld.after {}) := .step .start (.handled withheld)
  have hmailed := h {} {} _ [withheld] hr rfl (by decide +kernel) [] withheld [] rfl
  have hnone : ∀ email, ¬Assigns [] withheld email := by
    rintro email ⟨hanswer, hemail, -⟩
    obtain rfl : [] = email := Option.some.inj ((by decide +kernel : withheld.answer = some []).symm.trans hanswer)
    exact hemail rfl
  have hsent : withheld.mails {} = [.sendEmail (of "null") (of "A-1")] := by decide +kernel
  rw [hmailed.unsent hnone] at hsent
  cases hsent

end Webhook

end Chanserv
