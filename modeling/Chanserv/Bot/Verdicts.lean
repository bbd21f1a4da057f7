import Chanserv.Bot.KeyTable
import Chanserv.Bot.Survival

/-! What a decision about a key request comes to.

The requester is told, and for an approval there is a key of his in the table,
open: one found there, or a new one where there was none. The request is closed
once he was told, unless the process ends. -/
namespace Chanserv
open Text Program

/-! ### What a requester is told -/

def approvalText (key : Text) : Text :=
  of "Ваш запрос ключа для Revit одобрен. Ключ <code>" ++ toHtmlEscaped key ++ of "</code>"

def refusalText : Text := of "Ваш запрос ключа для Revit отклонён"

def isVerdict (text : Text) : Bool := (of "Ваш запрос ключа для Revit ").isPrefixOf text

/-- Whom a message tells a decision, and how. -/
def Effect.verdict : Effect → Option (Int × Text)
  | .sendMessage (.user id) text _ _ => if isVerdict text then some (id, text) else none
  | _ => none

def Shared.verdicts (s : Shared) : List (Int × Text) := s.trace.filterMap Effect.verdict

theorem Shared.verdicts_log (s : Shared) (e : Effect) : (s.log e).verdicts = s.verdicts ++ e.verdict.toList :=
  Shared.filterMap_log Effect.verdict s e

theorem Shared.verdicts_told {s : Shared} {e : Effect} {id : Int} {text : Text} (h : e.verdict = some (id, text)) :
    (s.log e).verdicts = s.verdicts ++ [(id, text)] := by
  rw [Shared.verdicts_log, h, Option.toList_some]

theorem Shared.verdicts_other {s : Shared} {e : Effect} (h : e.verdict = none) : (s.log e).verdicts = s.verdicts := by
  rw [Shared.verdicts_log, h, Option.toList_none, List.append_nil]

theorem isVerdict_approval (key : Text) : isVerdict (approvalText key) = true := by
  have hhead : of "Ваш запрос ключа для Revit одобрен. Ключ <code>" =
      of "Ваш запрос ключа для Revit " ++ of "одобрен. Ключ <code>" := by decide
  rw [isVerdict, List.isPrefixOf_iff_prefix, approvalText, hhead, List.append_assoc, List.append_assoc]
  exact List.prefix_append _ _

theorem verdict_approval (id : Int) (key : Text) (kb : Keyboard) (parseMode : Text) :
    (Effect.sendMessage (.user id) (approvalText key) kb parseMode).verdict = some (id, approvalText key) := by
  rw [Effect.verdict, if_pos (isVerdict_approval key)]

theorem verdict_refusal (id : Int) (kb : Keyboard) (parseMode : Text) :
    (Effect.sendMessage (.user id) refusalText kb parseMode).verdict = some (id, refusalText) := by
  rw [Effect.verdict, if_pos (by decide)]

/-- Notices to the staff tell requesters nothing. -/
theorem verdict_comrade (q : CallbackQuery) (rest : Text) (id : Int) (kb : Keyboard) :
    (Effect.sendMessage (.user id) (comrade q ++ rest) kb).verdict = none := by
  have hhead : of "Тов. " = 'Т' :: of "ов. " := by decide
  have hverdict : of "Ваш запрос ключа для Revit " = 'В' :: of "аш запрос ключа для Revit " := by decide
  have hother : isVerdict (comrade q ++ rest) = false := by
    rw [isVerdict, comrade, hhead, hverdict]
    rfl
  rw [Effect.verdict, hother, if_neg Bool.false_ne_true]

/-! ### The key of an approval -/

/-- The table as it was, or with a key for a user who had none that is open. -/
def Issues (id : Int) (rows rows' : List MasterKeyRow) : Prop :=
  rows' = rows ∨ (∀ row ∈ rows, row.tgId = itoa id → row.isActivated = true) ∧
    ∃ row, row.tgId = itoa id ∧ rows' = rows ++ [row]

/-- A key of a user that is open. -/
def OpenKey (id : Int) (rows : List MasterKeyRow) (key : Text) : Prop :=
  ∃ row ∈ rows, row.tgId = itoa id ∧ row.isActivated = false ∧ row.masterKey = key

section
variable {cfg : Config} {kenv : KeyEnv} {q : CallbackQuery} {requester now : Int} {u : UserDispatcher} {s : Shared}
  {c d : Chat} {w : World}

theorem insertRevitKeyToDb_issues :
    wp (insertRevitKeyToDb kenv u)
      (fun key s' => s'.verdicts = s.verdicts ∧ Issues u.chatUserTgId s.keys s'.keys ∧
        (key ≠ [] → OpenKey u.chatUserTgId s'.keys key))
      (fun _ s' => s'.verdicts = s.verdicts ∧ Issues u.chatUserTgId s.keys s'.keys) s := by
  have hselect : (s.log (.selectMasterKey (itoa u.chatUserTgId))).verdicts = s.verdicts := Shared.verdicts_other rfl
  simp only [insertRevitKeyToDb, wp_bind, wp_call, wp_get, wp_ite, wp_pure]
  refine ⟨fun selected _ => ⟨fun _ => ⟨hselect, .inl rfl, fun hn => absurd rfl hn⟩, fun _ => ?_⟩,
    fun _ _ => ⟨hselect, .inl rfl⟩⟩
  cases hfind : (s.log (.selectMasterKey (itoa u.chatUserTgId))).db.masterKeys.find? fun row =>
      row.tgId = itoa u.chatUserTgId ∧ row.isActivated = false with
  | some row =>
    have hrow := List.find?_some hfind
    rw [decide_eq_true_eq] at hrow
    exact ⟨hselect, .inl rfl, fun _ => ⟨row, List.mem_of_find?_eq_some hfind, hrow.1, hrow.2, rfl⟩⟩
  | none =>
    have hnone : ∀ row ∈ s.keys, row.tgId = itoa u.chatUserTgId → row.isActivated = true := by
      intro row hrow htg
      have hno := List.find?_eq_none.mp hfind row hrow
      rw [decide_eq_true_eq] at hno
      cases hact : row.isActivated with
      | true => rfl
      | false => exact absurd ⟨htg, hact⟩ hno
    have hinsert (row : MasterKeyRow) (s' : Shared) (h : s'.verdicts = s.verdicts) :
        (s'.log (.insertMasterKey row)).verdicts = s.verdicts := (Shared.verdicts_other rfl).trans h
    have hgrown (row : MasterKeyRow) (hrow : row.tgId = itoa u.chatUserTgId) :
        Issues u.chatUserTgId s.keys (s.keys ++ [row]) := .inr ⟨hnone, row, hrow, rfl⟩
    simp only [wp_bind, wp_sql, wp_ite, wp_call, wp_pure]
    refine ⟨fun _ => ⟨fun _ => ⟨fun _ _ => ?_, fun _ _ => ?_⟩, fun hn => absurd trivial hn⟩,
      fun _ => ⟨fun hn => (by cases hn), fun _ => ?_⟩, fun _ _ => ?_⟩
    · refine ⟨(Shared.verdicts_other rfl).trans (hinsert _ _ hselect), hgrown _ rfl, fun _ => ?_⟩
      exact ⟨_, List.mem_append_right _ (List.mem_singleton_self _), rfl, rfl, rfl⟩
    · exact ⟨(Shared.verdicts_other rfl).trans (hinsert _ _ hselect), hgrown _ rfl⟩
    · exact ⟨hinsert _ _ hselect, .inl rfl, fun hn => absurd rfl hn⟩
    · exact ⟨hinsert _ _ hselect, .inl rfl⟩

/-! ### Decisions -/

/-- A refusal, or an approval with a key of the user that is open. -/
def Rightly (id : Int) (rows : List MasterKeyRow) (text : Text) : Prop :=
  text = refusalText ∨ ∃ key, OpenKey id rows key ∧ text = approvalText key

/-- A decision in the session of the requester. He is told once, if at all, and about a request there
is; if the message reached him the request is closed, or the process has ended. -/
structure Ruled (kenv : KeyEnv) (requester : Int) (c : Chat) (r : Option Stop) (c' : Chat) : Prop where
  owner : c'.ud.chatUserTgId = c.ud.chatUserTgId
  keys : Issues c.ud.chatUserTgId c.sh.keys c'.sh.keys
  verdict : c'.sh.verdicts = c.sh.verdicts ∨ ∃ text,
    c'.sh.verdicts = c.sh.verdicts ++ [(requester, text)] ∧ Rightly c.ud.chatUserTgId c'.sh.keys text ∧
      c.reason ≠ [] ∧ (kenv.decision.Normal → c'.reason = [] ∨ ¬Alive r)

theorem sendMsgToStaff_untold {text : Text} (h : ∀ id, (Effect.sendMessage (.user id) text).verdict = none)
    (r : Nat → Sending) : Frames Shared.verdicts (sendMsgToStaff cfg text .none r) := by
  have hlog (id : Int) : Frames Shared.verdicts (log (.sendMessage (.user id) text)) :=
    ⟨.writes fun _ => Shared.verdicts_other (h id)⟩
  have hcall (id : Int) (r : Sending) : Frames Shared.verdicts (call (.sendMessage (.user id) text) r) :=
    (hlog id).calls r
  unfold sendMsgToStaff
  infer_instance

/-- The last lines of both decisions, after the requester was told. -/
theorem told_ruled {text notice : Text} (hud : d.ud = c.ud) (hkeys : Issues c.ud.chatUserTgId c.sh.keys d.sh.keys)
    (hverdicts : d.sh.verdicts = c.sh.verdicts ++ [(requester, text)]) (hreason : c.reason ≠ [])
    (htext : Rightly c.ud.chatUserTgId d.sh.keys text)
    (hnotice : ∀ id, (Effect.sendMessage (.user id) notice).verdict = none) :
    wp (inThread (service (sendMsgToStaff cfg notice .none kenv.staff)))
      (fun _ d' => wp clearRequest (fun _ => Ruled kenv requester c none)
        (fun stop => Ruled kenv requester c (some stop)) d')
      (fun stop => Ruled kenv requester c (some stop)) d := by
  have huntold : Frames Shared.verdicts (sendMsgToStaff cfg notice .none kenv.staff) :=
    sendMsgToStaff_untold hnotice kenv.staff
  have hkept : Frames Shared.keys (sendMsgToStaff cfg notice .none kenv.staff) := inferInstance
  have hended {stop : Stop} (hstop : stop.fatal = true) {sh : Shared}
      (h : (sh.keys = d.sh.keys) ∧ sh.verdicts = d.sh.verdicts) :
      Ruled kenv requester c (some stop) {d with sh} := by
    refine ⟨by rw [hud], h.1 ▸ hkeys, .inr ⟨text, h.2.trans hverdicts, h.1 ▸ htext, hreason, fun _ => .inr ?_⟩⟩
    intro halive
    rw [halive stop rfl] at hstop
    cases hstop
  rw [wp_inThread, wp_service]
  refine wp_mono (wp_and (hkept.keeps d.sh) (huntold.keeps d.sh)) ?_ ?_
  · rintro _ sh ⟨hk, hv⟩
    rw [clearRequest, wp_modifyTask]
    exact ⟨by rw [hud], hk ▸ hkeys, .inr ⟨text, hv.trans hverdicts, hk ▸ htext, hreason, fun _ => .inl rfl⟩⟩
  · rintro stop sh ⟨⟨-, hk⟩, -, hv⟩
    cases stop with
    | throws e => exact hended rfl ⟨hk, hv⟩
    | _ => exact hended rfl ⟨hk, hv⟩

theorem Ruled.untold {r : Option Stop} (hud : d.ud = c.ud) (hkeys : Issues c.ud.chatUserTgId c.sh.keys d.sh.keys)
    (hverdicts : d.sh.verdicts = c.sh.verdicts) : Ruled kenv requester c r d :=
  ⟨by rw [hud], hkeys, .inl hverdicts⟩

theorem approveKey_ruled :
    wp (approveKey cfg kenv q requester) (fun _ => Ruled kenv requester c none)
      (fun stop => Ruled kenv requester c (some stop)) c := by
  rw [approveKey, wp_bind, wp_get, wp_guarded]
  refine ⟨fun hreason => ?_, fun _ => .untold rfl (.inl rfl) rfl⟩
  have hlog : (c.sh.log (.decideKey true requester)).verdicts = c.sh.verdicts := Shared.verdicts_other rfl
  rw [wp_bind, wp_service, wp_log, wp_bind, wp_service]
  refine wp_mono insertRevitKeyToDb_issues ?_ ?_
  · rintro key sh ⟨hverdicts, hkeys, hopen⟩
    dsimp only
    split
    · simp only [sendMsgToSupport, wp_bind, wp_service, wp_call, wp_pure, clearRequest, wp_modifyTask]
      refine ⟨fun _ _ => ⟨rfl, hkeys, .inl ?_⟩, fun _ _ => ⟨rfl, hkeys, .inl ?_⟩⟩
      all_goals exact (Shared.verdicts_other rfl).trans (hverdicts.trans hlog)
    · rename_i hkey
      have htold (kb : Keyboard) (parseMode : Text) :
          (sh.log (.sendMessage (.user requester) (approvalText key) kb parseMode)).verdicts =
            c.sh.verdicts ++ [(requester, approvalText key)] := by
        rw [Shared.verdicts_told (verdict_approval requester key kb parseMode), hverdicts, hlog]
      have hrightly : Rightly c.ud.chatUserTgId sh.keys (approvalText key) := .inr ⟨key, hopen hkey, rfl⟩
      rw [wp_bind, wp_service, wp_call]
      constructor
      · intro _ _
        rw [wp_bind]
        refine told_ruled rfl hkeys (htold _ _) hreason hrightly fun id => ?_
        rw [List.append_assoc]
        exact verdict_comrade q _ id _
      · intro x hx
        refine ⟨rfl, hkeys, .inr ⟨_, htold _ _, hrightly, hreason, fun hnormal => ?_⟩⟩
        exact absurd hx hnormal.not_throws
  · rintro stop sh ⟨hverdicts, hkeys⟩
    exact .untold rfl hkeys (hverdicts.trans hlog)

theorem rejectKey_ruled :
    wp (rejectKey cfg kenv q requester) (fun _ => Ruled kenv requester c none)
      (fun stop => Ruled kenv requester c (some stop)) c := by
  rw [rejectKey, wp_bind, wp_get, wp_guarded]
  refine ⟨fun hreason => ?_, fun _ => .untold rfl (.inl rfl) rfl⟩
  have htold : ((c.sh.log (.decideKey false requester)).log (.sendMessage (.user requester) refusalText)).verdicts =
      c.sh.verdicts ++ [(requester, refusalText)] := by
    rw [Shared.verdicts_told (verdict_refusal requester .none []), Shared.verdicts_other rfl]
  rw [wp_bind, wp_service, wp_log, wp_bind, wp_service, wp_call]
  constructor
  · intro _ _
    rw [wp_bind]
    refine told_ruled rfl (.inl rfl) htold hreason (.inl rfl) fun id => ?_
    rw [List.append_assoc]
    exact verdict_comrade q _ id _
  · intro x hx
    refine ⟨rfl, .inl rfl, .inr ⟨_, htold, .inl rfl, hreason, fun hnormal => ?_⟩⟩
    exact absurd hx hnormal.not_throws

/-! ### Clicks on the two buttons -/

/-- The reason of a user's request; empty without one. -/
def World.reason (w : World) (id : Int) : Text := (w.session id).elim [] fun u => u.jiraTask.keyReason

theorem World.reason_of_session (h : w.session requester = some u) : w.reason requester = u.jiraTask.keyReason := by
  rw [World.reason, h, Option.elim_some]

/-- The same about all sessions. -/
structure World.Ruled (kenv : KeyEnv) (id : Int) (w : World) (r : Option Stop) (w' : World) : Prop where
  owned : w'.Owned
  keys : Issues id w.sh.keys w'.sh.keys
  verdict : w'.sh.verdicts = w.sh.verdicts ∨ ∃ text,
    w'.sh.verdicts = w.sh.verdicts ++ [(id, text)] ∧ Rightly id w'.sh.keys text ∧
      w.reason id ≠ [] ∧ (kenv.decision.Normal → w'.reason id = [] ∨ ¬Alive r)

/-- Nothing is in the table that was not, and nobody was told anything. -/
def Unruled (w w' : World) : Prop := w'.sh.keys = w.sh.keys ∧ w'.sh.verdicts = w.sh.verdicts

theorem World.Ruled.of_unruled {w' : World} {r : Option Stop} (howned : w'.Owned) (h : Unruled w w') :
    w.Ruled kenv requester r w' :=
  ⟨howned, .inl h.1, .inl h.2⟩

/-- An exception that is caught ends nothing. -/
theorem World.Ruled.caught {w' : World} {e : Exn} (h : w.Ruled kenv requester (some (.throws e)) w') :
    w.Ruled kenv requester none w' := by
  refine ⟨h.owned, h.keys, h.verdict.imp_right ?_⟩
  rintro ⟨text, htold, hrightly, hreason, hclosed⟩
  refine ⟨text, htold, hrightly, hreason, fun hnormal => .inl ((hclosed hnormal).resolve_right ?_)⟩
  exact fun hdead => hdead fun stop hstop => Option.some.inj hstop ▸ rfl

/-- A decision in the session found. -/
theorem World.Ruled.of_chat {w₁ w₂ : World} {u₁ : UserDispatcher} {r : Option Stop} (hw : w.Owned)
    (hu : w.session requester = some u) (hu₁ : LookedAt now u u₁) (ho₁ : OthersKept requester w w₁)
    (hn₁ : Unruled w w₁) (hd : Chanserv.Ruled kenv requester ⟨u₁, w₁.sh⟩ r d) (h₂ : w₂.At requester d)
    (ho₂ : OthersKept requester w₁ w₂) : w.Ruled kenv requester r w₂ := by
  have howner : u₁.chatUserTgId = requester := by
    rw [hu₁.rest]
    exact hw requester u hu
  obtain ⟨hkeys, hverdicts⟩ := hn₁
  have hsh : w₂.sh = d.sh := by
    obtain ⟨-, -, -, hsh⟩ := h₂
    exact hsh
  obtain ⟨hown, hissues, hverdict⟩ := hd
  dsimp only at hown hissues hverdict
  rw [howner, hkeys] at hissues
  rw [howner, hverdicts] at hverdict
  refine ⟨hw.at h₂ (ho₁.trans ho₂) (hown.trans howner), by rw [hsh]; exact hissues, ?_⟩
  rw [hsh, World.reason_of_session hu, World.reason_of_session h₂.session]
  refine hverdict.imp_right ?_
  rintro ⟨text, htold, hrightly, hreason, hclosed⟩
  refine ⟨text, htold, hrightly, ?_, hclosed⟩
  rcases hu₁.request with hsame | hgone
  · exact fun hnone => hreason (hsame.trans hnone)
  · exact absurd hgone hreason

/-- An approval; for a rejection the requester's session is looked up only. -/
theorem lookUpRequester_ruled (hw : w.Owned) :
    wp (lookUpRequester cfg kenv q requester now)
      (fun _ w' => w.Ruled kenv requester none w' ∧ (¬isApprove q.data → Unruled w w'))
      (fun stop w' => w.Ruled kenv requester (some stop) w') w := by
  refine wp_lookUpRequester (fun _ _ text => ?_) (fun u hu _ happrove => ?_) fun u hu _ w' h' ho' => ?_
  · have hasked : Unruled w {w with uD := none, sh := w.sh.log (.answerCallbackQuery q.id text)} :=
      ⟨rfl, Shared.verdicts_other rfl⟩
    exact ⟨.of_unruled hw hasked, fun _ => hasked⟩
  · have hdone {r : Option Stop} {d : Chat} {w' : World}
        (hd : Chanserv.Ruled kenv requester ((⟨u, w.sh⟩ : Chat).touch now) r d)
        (h' : w'.At requester d) (ho' : OthersKept requester w w') : w.Ruled kenv requester r w' :=
      .of_chat hw hu (.touch (.refl _ _)) (.refl _ _) ⟨rfl, rfl⟩ hd h' ho'
    refine wp_mono approveKey_ruled (fun _ d hd w' h' ho' => ?_) fun stop d hd w' h' ho' => ⟨fun hcaught => ?_, fun _ => ?_⟩
    · exact ⟨hdone hd h' ho', fun hno => absurd happrove hno⟩
    · cases stop with
      | throws e => exact ⟨(hdone hd h' ho').caught, fun hno => absurd happrove hno⟩
      | _ => cases hcaught
    · exact hdone hd h' ho'
  · have howned : w'.Owned := hw.at h' ho' (hw requester u hu)
    have hseen : Unruled w w' := by
      obtain ⟨-, -, -, hsh⟩ := h'
      rw [Unruled, hsh]
      exact ⟨rfl, rfl⟩
    exact ⟨.of_unruled howned hseen, fun _ => hseen⟩

theorem keyDecision_ruled (hw : w.Owned) :
    wp (keyDecision cfg kenv q now) (fun _ w' => ∃ id, w.Ruled kenv id none w')
      (fun stop w' => ∃ id, w.Ruled kenv id (some stop) w') w := by
  unfold keyDecision
  cases hreq : requesterId q.data with
  | none => exact ⟨0, .of_unruled hw ⟨rfl, rfl⟩⟩
  | some requester =>
    dsimp only
    rw [wp_bind]
    refine wp_mono (wp_and (lookUpRequester_ruled hw) lookUpRequester_decided) ?_ fun _ _ h => ⟨requester, h.1⟩
    rintro goesOn w₁ ⟨⟨hruled, hseen⟩, hdecided⟩
    rw [wp_bind, wp_get, wp_bind, wp_guarded]
    refine ⟨?_, fun _ => ⟨requester, hruled⟩⟩
    rintro ⟨-, -, hfound, hreject⟩
    have hsame := hseen (isApprove_of_isReject hreject)
    cases hu : w.session requester with
    | none =>
      rw [(hdecided.absent hu).2] at hfound
      cases hfound
    | some u =>
      obtain ⟨u₁, hu₁, hat⟩ := hdecided.present u hu
      refine wp_onSession hat (wp_mono rejectKey_ruled ?_ ?_)
      all_goals
        intro _ d hd w₂ h₂ ho₂
        exact ⟨requester, .of_chat hw hu hu₁ hdecided.others hsame hd h₂ ho₂⟩

end

section
variable {cfg : Config} {env : CallbackEnv} {q : CallbackQuery} {now me : Int} {u : UserDispatcher} {c : Chat} {w w' : World}

theorem World.reason_of_at (hu : w.session me = some u) (hat : w'.At me c) (ho : OthersKept me w w')
    (hc : c.reason = u.jiraTask.keyReason) (id : Int) : w'.reason id = w.reason id := by
  by_cases hid : id = me
  · subst hid
    rw [World.reason_of_session hat.session, World.reason_of_session hu]
    exact hc
  · rw [World.reason, World.reason, ho.session hid]

instance : Frames (fun c : Chat => c) (clickedIssue q) := by
  unfold clickedIssue
  refine .bind inferInstance fun _ => ?_
  split <;> infer_instance

/-- In the session of who clicked, a decision's button does nothing. -/
theorem ownCallback_idle (hb : buttonOf q.data = none) :
    wp (ownCallback cfg env q now) (fun _ w' => w'.sh = w.sh ∧ ∀ id, w'.reason id = w.reason id)
      (fun _ w' => w'.sh = w.sh ∧ ∀ id, w'.reason id = w.reason id) w := by
  rw [ownCallback]
  refine wp_inSession _ _ (fun _ => ⟨rfl, fun _ => rfl⟩) fun u hu w₁ h₁ ho₁ => ?_
  have hdone {w₂ : World} (h₂ : w₂.At q.from_.id ((⟨u, w.sh⟩ : Chat).touch now)) (ho₂ : OthersKept q.from_.id w₁ w₂) :
      w₂.sh = w.sh ∧ ∀ id, w₂.reason id = w.reason id := by
    obtain ⟨-, -, -, hsh⟩ := id h₂
    exact ⟨hsh, World.reason_of_at hu h₂ (ho₁.trans ho₂) rfl⟩
  have hissue : Frames (fun c : Chat => c) (clickedIssue q) := inferInstance
  rw [wp_bind, hb]
  refine wp_onSession h₁ (wp_mono (hissue.keeps _) ?_ ?_)
  · intro issue c hc w₂ h₂ ho₂
    rw [hc] at h₂
    exact hdone h₂ ho₂
  · rintro _ c ⟨-, hc⟩ w₂ h₂ ho₂
    rw [hc] at h₂
    exact hdone h₂ ho₂

/-- A click on an approve or a reject button does nothing but decide: what a decision ends in, and an
idle click leaves, holds in the end. -/
theorem keyClick_final {uenv : UpdateEnv} {P : World → Prop} (hkey : isApprove q.data ∨ isReject q.data)
    (hrefused : ¬cfg.hasRole q.from_.id .staff → P w)
    (hdecision : cfg.hasRole q.from_.id .staff →
      wp (keyDecision cfg uenv.callback.key q uenv.now) (fun _ => P) (fun _ => P) w)
    (hidle : ∀ w₁ w₂ : World, w₂.sh = w₁.sh → (∀ id, w₂.reason id = w₁.reason id) → P w₁ → P w₂) :
    P (final (handleUpdate cfg uenv (.callback q)) w) := by
  refine of_wp (P := fun _ => P) ?_
  rw [handleUpdate, onCallbackQuery, roleForCallback_key hkey, wp_guarded]
  refine ⟨fun hrole => ?_, hrefused⟩
  rw [if_pos hkey, wp_bind]
  refine wp_mono (hdecision hrole) (fun goesOn w₁ h₁ => ?_) fun _ _ h => h
  rw [wp_guarded]
  refine ⟨fun _ => ?_, fun _ => h₁⟩
  refine wp_mono (ownCallback_idle (buttonOf_key hkey)) ?_ ?_
  all_goals exact fun _ w₂ hsame => hidle w₁ w₂ hsame.1 hsame.2 h₁

theorem World.Ruled.idle {kenv : KeyEnv} {id : Int} {r : Option Stop} {w₁ w₂ : World} (h : w.Ruled kenv id none w₁)
    (howned : w₂.Owned) (hsh : w₂.sh = w₁.sh) (hreason : ∀ id, w₂.reason id = w₁.reason id) :
    w.Ruled kenv id r w₂ := by
  refine ⟨howned, by rw [hsh]; exact h.keys, ?_⟩
  rw [hsh, hreason]
  refine h.verdict.imp_right ?_
  rintro ⟨text, htold, hrightly, hpending, hclosed⟩
  refine ⟨text, htold, hrightly, hpending, fun hnormal => .inl ((hclosed hnormal).resolve_right ?_)⟩
  exact fun hdead => hdead fun _ hstop => by cases hstop

/-- A click on an approve or a reject button. -/
theorem keyClick_ruled (cfg : Config) (uenv : UpdateEnv) (hkey : isApprove q.data ∨ isReject q.data) (hw : w.Owned) :
    ∃ id, w.Ruled uenv.callback.key id (failure (handleUpdate cfg uenv (.callback q)) w)
      (final (handleUpdate cfg uenv (.callback q)) w) := by
  refine of_wp (P := fun r w' => ∃ id, w.Ruled uenv.callback.key id r w') ?_
  have hstays : Stays SameKeys (ownCallback cfg uenv.callback q uenv.now) := inferInstance
  rw [handleUpdate, onCallbackQuery, wp_guarded]
  refine ⟨fun _ => ?_, fun _ => ⟨0, .of_unruled hw ⟨rfl, rfl⟩⟩⟩
  rw [if_pos hkey, wp_bind]
  refine wp_mono (keyDecision_ruled hw) ?_ fun _ _ h => h
  rintro goesOn w₁ ⟨id, h₁⟩
  rw [wp_guarded]
  refine ⟨fun _ => ?_, fun _ => ⟨id, h₁⟩⟩
  refine wp_mono (wp_and (hstays.within w₁) (ownCallback_idle (buttonOf_key hkey))) ?_ ?_
  all_goals
    rintro _ w₂ ⟨hsame, hsh, hreason⟩
    exact ⟨id, h₁.idle (hsame.1 h₁.owned) hsh hreason⟩

/-- All other updates leave the table as it is. -/
theorem handleUpdate_sameKeys {uenv : UpdateEnv} {x : Update}
    (hx : ∀ q, x = .callback q → ¬(isApprove q.data ∨ isReject q.data)) :
    SameKeys w (final (handleUpdate cfg uenv x) w) := by
  have hstays : Stays SameKeys (handleUpdate cfg uenv x) := by
    cases x with
    | command name m =>
      unfold handleUpdate
      infer_instance
    | message m =>
      unfold handleUpdate
      infer_instance
    | callback q =>
      rw [handleUpdate, onCallbackQuery, if_neg (hx q rfl)]
      infer_instance
  exact of_wp (P := fun _ => SameKeys w) (hstays.within w)

end

end Chanserv
