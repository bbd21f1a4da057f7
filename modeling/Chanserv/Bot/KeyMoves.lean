import Chanserv.Bot.Own

/-! What a click under the request of a master key does.

For a while `uD` points to the session of who requested the key: there, nothing
changes but the request, which is closed, and the time of the last look. -/
namespace Chanserv
open Text Program

/-- `uD` is null or points to a session there is. -/
def World.Sound (w : World) : Prop := ∀ p, w.uD = some p → (w.mSessions.deref p).isSome

theorem World.At.sound {w : World} {me : Int} {c : Chat} (h : w.At me c) : w.Sound := by
  obtain ⟨a, hp, hslot, -⟩ := h
  intro p hp'
  rw [hp, Option.some.injEq] at hp'
  rw [← hp', SessionStore.deref_of_lookup hslot]
  rfl

theorem OthersKept.session {me b : Int} {w w' : World} (h : OthersKept me w w') (hb : b ≠ me) :
    w'.session b = w.session b :=
  congrArg (Option.map Slot.session) (h b hb)

/-- What looks at a session, and decisions about its key request, leave of it: the time
may be refreshed and the request closed. -/
structure LookedAt (now : Int) (u u' : UserDispatcher) : Prop where
  activity : u'.lastActivity = u.lastActivity ∨ u'.lastActivity = now
  request : u'.jiraTask.keyReason = u.jiraTask.keyReason ∨ u'.jiraTask.keyReason = []
  rest : u' =
    { u with
      lastActivity := u'.lastActivity
      jiraTask := {u.jiraTask with keyReason := u'.jiraTask.keyReason} }

namespace LookedAt
variable {now : Int} {u u' : UserDispatcher}

theorem refl (now : Int) (u : UserDispatcher) : LookedAt now u u := ⟨.inl rfl, .inl rfl, rfl⟩

theorem touch (h : LookedAt now u u') : LookedAt now u {u' with lastActivity := now} where
  activity := .inr rfl
  request := h.request
  rest := by rw [h.rest]

theorem close (h : LookedAt now u u') :
    LookedAt now u {u' with jiraTask := {u'.jiraTask with keyReason := []}} where
  activity := h.activity
  request := .inr rfl
  rest := by rw [h.rest]

theorem task (h : LookedAt now u u') :
    u'.jiraTask = {u.jiraTask with keyReason := u'.jiraTask.keyReason} := by
  rw [h.rest]

theorem lockstep (h : LookedAt now u u') (hu : Lockstep u) : Lockstep u' := by
  rw [h.rest]
  exact hu

theorem opening (h : LookedAt now u u') (env : UpdateEnv) (x : Update) :
    opening env u' x = opening env u x := by
  rw [h.rest]
  rfl

theorem entersTekla (h : LookedAt now u u') (env : UpdateEnv) (x : Update) :
    entersTekla env u' x = entersTekla env u x := by
  rw [h.rest]
  rfl

end LookedAt

/-- Decisions about keys, and nothing else that is notable. -/
def KeyNotes (s s' : Shared) : Prop :=
  ∃ ks, s'.notes = s.notes ++ ks ∧ ∀ e ∈ ks, e.privilege = some .staff

theorem KeyNotes.of_eq {s s' : Shared} (h : s'.notes = s.notes) : KeyNotes s s' :=
  ⟨[], by rw [h, List.append_nil], by simp⟩

theorem KeyNotes.trans {s s' s'' : Shared} (h : KeyNotes s s') (h' : KeyNotes s' s'') :
    KeyNotes s s'' := by
  obtain ⟨ks, hks, hks'⟩ := h
  obtain ⟨ls, hls, hls'⟩ := h'
  refine ⟨ks ++ ls, by rw [hls, hks, List.append_assoc], fun e he => ?_⟩
  exact (List.mem_append.mp he).elim (hks' e) (hls' e)

/-! ### Approve and reject buttons -/

section
variable {cfg : Config} {kenv : KeyEnv} {q : CallbackQuery} {requester now : Int} {w : World} {c : Chat}

/-- A decision leaves the session as it was, or closes the request. -/
structure Decides (c c' : Chat) : Prop where
  session : c'.ud = c.ud ∨ c'.ud = {c.ud with jiraTask := {c.ud.jiraTask with keyReason := []}}
  notes : KeyNotes c.sh c'.sh

/-- How the two decisions may end. -/
def Deciding (m : ChatM Unit) (c d : Chat) : Prop :=
  wp m (fun _ => Decides c) (fun stop d' => stop ≠ .badAccess ∧ Decides c d') d

theorem Silent.insertRevitKeyToDb {u : UserDispatcher} : Silent (insertRevitKeyToDb kenv u) := by
  refine (Silent.call rfl).bind fun selected => Keeps.reads.bind fun s => ?_
  refine Keeps.ite (Keeps.done _) ?_
  split
  · exact Keeps.done _
  · exact (Silent.sql rfl).bind fun _ =>
      Keeps.ite ((Silent.call rfl).bind fun _ => Keeps.done _) (Keeps.done _)

/-- Programs that leave the session alone and do nothing notable. -/
abbrev Aside {α : Type} (m : ChatM α) : Prop :=
  Keeps (fun c : Chat => (c.ud, c.sh.notes)) (fun stop => stop ≠ .badAccess) m

theorem Aside.service {α : Type} {m : ServiceM α} (h : Silent m) : Aside (service m) := by
  refine (h.zoom fun c sh hsh => ?_).mono fun stop hstop => ?_
  · rw [hsh]
  · exact fun hs => by rw [hs] at hstop; cases hstop

theorem Aside.inThread {α : Type} {m : ChatM α} (h : Aside m) : Aside (inThread m) :=
  Keeps.handling h fun stop hstop => by
    cases stop with
    | badAccess => exact absurd rfl hstop
    | _ => exact Keeps.fails (by simp)

/-- While a decision is made known the session is as it was. -/
theorem Deciding.bind {α : Type} {m : ChatM α} {f : α → ChatM Unit} {d : Chat} (hm : Aside m)
    (hd : d.ud = c.ud ∧ KeyNotes c.sh d.sh)
    (hf : ∀ a d', d'.ud = c.ud ∧ KeyNotes c.sh d'.sh → Deciding (f a) c d') :
    Deciding (m >>= f) c d := by
  have hleft {d' : Chat} (h : (d'.ud, d'.sh.notes) = (d.ud, d.sh.notes)) :
      d'.ud = c.ud ∧ KeyNotes c.sh d'.sh := by
    obtain ⟨hud, hnotes⟩ := Prod.ext_iff.mp h
    exact ⟨hud.trans hd.1, hd.2.trans (.of_eq hnotes)⟩
  rw [Deciding, wp_bind]
  exact wp_mono (hm d) (fun a d' h => hf a d' (hleft h))
    fun _ d' h => ⟨h.1, .inl (hleft h.2).1, (hleft h.2).2⟩

theorem clearRequest_deciding {d : Chat} (hd : d.ud = c.ud ∧ KeyNotes c.sh d.sh) :
    Deciding clearRequest c d := by
  rw [Deciding, clearRequest, wp_modifyTask]
  exact ⟨.inr (by rw [hd.1]), hd.2⟩

theorem logged_decision {approved : Bool} :
    KeyNotes c.sh (c.sh.log (.decideKey approved requester)) :=
  ⟨[.decideKey approved requester], by simp, by simp⟩

theorem approveKey_deciding : Deciding (approveKey cfg kenv q requester) c c := by
  rw [Deciding, approveKey, wp_bind, wp_get, wp_guarded]
  refine ⟨fun _ => ?_, fun _ => ⟨.inl rfl, .of_eq rfl⟩⟩
  rw [wp_bind, wp_service, wp_log]
  refine Deciding.bind (.service .insertRevitKeyToDb) ⟨rfl, logged_decision⟩ fun _ d hd => ?_
  dsimp only
  split
  · exact Deciding.bind (.service .sendMsgToSupport) hd fun _ _ => clearRequest_deciding
  · refine Deciding.bind (.service (.call rfl)) hd fun _ d hd => ?_
    exact Deciding.bind (.inThread (.service .sendMsgToStaff)) hd fun _ _ => clearRequest_deciding

theorem rejectKey_deciding : Deciding (rejectKey cfg kenv q requester) c c := by
  rw [Deciding, rejectKey, wp_bind, wp_get, wp_guarded]
  refine ⟨fun _ => ?_, fun _ => ⟨.inl rfl, .of_eq rfl⟩⟩
  rw [wp_bind, wp_service, wp_log]
  refine Deciding.bind (.service (.call rfl)) ⟨rfl, logged_decision⟩ fun _ d hd => ?_
  exact Deciding.bind (.inThread (.service .sendMsgToStaff)) hd fun _ _ => clearRequest_deciding

/-- What the search for a requester, and a decision about the request, do. -/
structure Decided (now requester : Int) (w w' : World) : Prop where
  notes : KeyNotes w.sh w'.sh
  others : OthersKept requester w w'
  absent : w.session requester = none → w'.session requester = none ∧ w'.uD = none
  present : ∀ u, w.session requester = some u →
    ∃ u', LookedAt now u u' ∧ w'.At requester ⟨u', w'.sh⟩

theorem World.At.eta {w : World} {me : Int} {c : Chat} (h : w.At me c) : w.At me ⟨c.ud, w.sh⟩ := by
  obtain ⟨a, hp, hslot, -⟩ := h
  exact ⟨a, hp, hslot, rfl⟩

/-- A decision in the session found. -/
theorem Decided.of_decides {w₁ w₂ : World} {u u₁ : UserDispatcher} {d : Chat}
    (hu : w.session requester = some u) (hu₁ : LookedAt now u u₁) (ho₁ : OthersKept requester w w₁)
    (hn₁ : KeyNotes w.sh w₁.sh) (hd : Decides ⟨u₁, w₁.sh⟩ d) (h₂ : w₂.At requester d)
    (ho₂ : OthersKept requester w₁ w₂) : Decided now requester w w₂ where
  notes := by
    obtain ⟨-, -, -, hsh⟩ := h₂
    rw [hsh]
    exact hn₁.trans hd.notes
  others := ho₁.trans ho₂
  absent h := by rw [hu] at h; cases h
  present v hv := by
    rw [hu, Option.some.injEq] at hv
    subst hv
    refine ⟨d.ud, ?_, h₂.eta⟩
    rcases hd.session with hs | hs
    · rw [hs]; exact hu₁
    · rw [hs]; exact hu₁.close

/-- The search for who asked: no session, one whose request is approved, or one that is only found.
An exception of the approval is caught. -/
theorem wp_lookUpRequester {Q : Bool → World → Prop} {E : Stop → World → Prop}
    (habsent : w.session requester = none → ∀ goesOn text,
      Q goesOn {w with uD := none, sh := w.sh.log (.answerCallbackQuery q.id text)})
    (happroved : ∀ u, w.session requester = some u → requester ≠ 0 → isApprove q.data →
      wp (approveKey cfg kenv q requester)
        (fun _ d => ∀ w', w'.At requester d → OthersKept requester w w' → Q true w')
        (fun stop d => ∀ w', w'.At requester d → OthersKept requester w w' →
          (stop.fatal = false → Q true w') ∧ (stop.fatal = true → E stop w')) ((⟨u, w.sh⟩ : Chat).touch now))
    (hfound : ∀ u, w.session requester = some u → ¬(requester ≠ 0 ∧ isApprove q.data) →
      ∀ w', w'.At requester ((⟨u, w.sh⟩ : Chat).touch now) → OthersKept requester w w' → Q true w') :
    wp (lookUpRequester cfg kenv q requester now) Q E w := by
  rw [lookUpRequester, wp_catching, wp_bind]
  refine wp_selectSession _ _ (fun hs => ?_) fun u hu w₁ h₁ ho₁ => ?_
  · rw [if_neg Bool.false_ne_true]
    simp only [serviceBot, wp_bind, wp_zoom, wp_call, wp_pure]
    exact ⟨fun _ _ => habsent hs _ _, fun _ _ => habsent hs _ _⟩
  · rw [if_pos rfl, wp_bind, wp_guarded]
    refine ⟨fun hc => ?_, fun hno => hfound u hu hno w₁ h₁ ho₁⟩
    refine wp_onSession h₁ (wp_mono (happroved u hu hc.1 hc.2) (fun _ d hd w' h' ho' => ?_) fun stop d hd w' h' ho' => ?_)
    · exact hd w' h' (ho₁.trans ho')
    · obtain ⟨hcaught, hfatal⟩ := hd w' h' (ho₁.trans ho')
      cases stop with
      | throws e => exact hcaught rfl
      | _ => exact hfatal rfl

theorem lookUpRequester_decided :
    wp (lookUpRequester cfg kenv q requester now) (fun _ => Decided now requester w)
      (fun stop w' => stop ≠ .badAccess ∧ Decided now requester w w') w := by
  have hdone {u : UserDispatcher} (hu : w.session requester = some u) {d : Chat} {w' : World}
      (hd : Decides ((⟨u, w.sh⟩ : Chat).touch now) d) (h' : w'.At requester d) (ho' : OthersKept requester w w') :
      Decided now requester w w' :=
    .of_decides hu (.touch (.refl _ _)) (.refl _ _) (.of_eq rfl) hd h' ho'
  refine wp_lookUpRequester (fun hs _ text => ?_) (fun u hu _ _ => ?_) fun u hu _ w' h' ho' => ?_
  · refine ⟨.of_eq (by simp), .refl _ _, fun _ => ⟨hs, rfl⟩, fun u hu => ?_⟩
    rw [hs] at hu
    cases hu
  · refine wp_mono approveKey_deciding (fun _ d hd w' h' ho' => hdone hu hd h' ho') fun stop d hd w' h' ho' => ?_
    exact ⟨fun _ => hdone hu hd.2 h' ho', fun _ => ⟨hd.1, hdone hu hd.2 h' ho'⟩⟩
  · exact hdone hu ⟨.inl rfl, .of_eq rfl⟩ h' ho'

/-- The whole branch; without a number in the data nothing is done. -/
theorem keyDecision_decided :
    wp (keyDecision cfg kenv q now)
      (fun _ w' => w' = w ∨ ∃ requester, requesterId q.data = some requester ∧
        Decided now requester w w')
      (fun stop w' => stop ≠ .badAccess ∧ ∃ requester, requesterId q.data = some requester ∧
        Decided now requester w w') w := by
  unfold keyDecision
  split
  · exact .inl rfl
  · rename_i requester hreq
    rw [wp_bind]
    refine wp_mono lookUpRequester_decided (fun goesOn w₁ h₁ => ?_)
      fun stop w₁ h₁ => ⟨h₁.1, requester, hreq, h₁.2⟩
    rw [wp_bind, wp_get, wp_bind, wp_guarded]
    refine ⟨fun hc => ?_, fun _ => .inr ⟨requester, hreq, h₁⟩⟩
    cases hu : w.session requester with
    | none => rw [(h₁.absent hu).2] at hc; exact absurd hc.2.2.1 (by simp)
    | some u =>
      obtain ⟨u₁, hu₁, hat⟩ := h₁.present u hu
      refine wp_onSession hat (wp_mono rejectKey_deciding (fun _ d hd w₂ h₂ ho₂ => ?_)
        fun stop d hd w₂ h₂ ho₂ => ⟨hd.1, ?_⟩)
      · exact .inr ⟨requester, hreq, .of_decides hu hu₁ h₁.others h₁.notes hd h₂ ho₂⟩
      · exact ⟨requester, hreq, .of_decides hu hu₁ h₁.others h₁.notes hd.2 h₂ ho₂⟩

end

end Chanserv
