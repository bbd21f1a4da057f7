import Chanserv.Bot.ReasonLeft

/-! Decisions that reach the user.

When all calls succeed, a click of staff tells the user what was decided exactly when
his session holds a reason: an approval comes with a key, and no key is an empty text. -/
namespace Chanserv
open Text Program

/-! ### Keys that are no empty texts -/

def Filled (rows : List MasterKeyRow) : Prop := ∀ row ∈ rows, row.masterKey ≠ []

/-- No empty key is new. -/
def StaysFilled (s s' : Shared) : Prop := Filled s.keys → Filled s'.keys

instance : Std.Refl StaysFilled := ⟨fun _ h => h⟩

instance : IsTrans Shared StaysFilled := ⟨fun _ _ _ h h' hs => h' (h hs)⟩

instance {α : Type} {m : ServiceM α} [hm : Frames Shared.keys m] : Stays StaysFilled m :=
  .of_frames hm fun _ _ h hs => (congrArg Filled h).mpr hs

theorem Filled.activated {rows : List MasterKeyRow} (h : Filled rows) (used : MasterKeyRow → Bool) :
    Filled (activated used rows) := by
  intro row hrow
  obtain ⟨row', hrow', rfl⟩ := List.mem_map.mp hrow
  split
  · exact h row' hrow'
  · exact h row' hrow'

section
variable {cfg : Config} {kenv : KeyEnv} {q : CallbackQuery} {now requester : Int} {u : UserDispatcher} {s : Shared}
  {c : Chat} {w w' : World}

theorem insertRevitKeyToDb_filled (hkey : kenv.generatedKey ≠ []) : Stays StaysFilled (insertRevitKeyToDb kenv u) := by
  have hinsert (row : MasterKeyRow) (hrow : row.masterKey ≠ []) : Stays StaysFilled
      (sql (.insertMasterKey row) kenv.insertKey fun db => {db with masterKeys := db.masterKeys ++ [row]}) := by
    have hwrite : Stays StaysFilled (modify fun s : Shared =>
        {s with db := {s.db with masterKeys := s.db.masterKeys ++ [row]}} : ServiceM Unit) := by
      refine ⟨.writes fun s hs row' hrow' => ?_⟩
      rcases List.mem_append.mp hrow' with hold | hnew
      · exact hs row' hold
      · exact List.mem_singleton.mp hnew ▸ hrow
    unfold sql
    infer_instance
  unfold insertRevitKeyToDb
  refine Stays.bind inferInstance fun selected => Stays.bind inferInstance fun s => ?_
  split
  · infer_instance
  · split
    · infer_instance
    · exact Stays.bind (hinsert _ hkey) fun inserted => inferInstance

/-- The table gets no empty key in a decision. -/
theorem keyDecision_filled (hkey : kenv.generatedKey ≠ []) :
    Stays (KeptLists StaysFilled) (keyDecision cfg kenv q now) := by
  have hinsert (u : UserDispatcher) : Stays StaysFilled (insertRevitKeyToDb kenv u) := insertRevitKeyToDb_filled hkey
  have happrove (requester : Int) : Stays (SameLists StaysFilled) (approveKey cfg kenv q requester) := by
    unfold approveKey clearRequest
    refine Stays.bind inferInstance fun c => ⟨.guarded fun _ => ?_⟩
    refine (Stays.bind inferInstance fun _ => Stays.bind inferInstance fun key => ?_).within
    dsimp only
    split <;> infer_instance
  have hreject (requester : Int) : Stays (SameLists StaysFilled) (rejectKey cfg kenv q requester) := by
    unfold rejectKey clearRequest
    infer_instance
  unfold keyDecision lookUpRequester
  cases requesterId q.data <;> infer_instance

theorem handleUpdate_filled {env : UpdateEnv} {x : Update} (hkey : env.callback.key.generatedKey ≠ [])
    (hw : Filled w.sh.keys) : Filled (final (handleUpdate cfg env x) w).sh.keys := by
  by_cases hclick : ∃ q, x = .callback q ∧ (isApprove q.data ∨ isReject q.data)
  · obtain ⟨q, rfl, hdata⟩ := hclick
    have hdecision := @keyDecision_filled cfg env.callback.key q env.now hkey
    refine keyClick_final (P := fun w' => Filled w'.sh.keys) hdata (fun _ => hw) (fun _ => ?_) fun w₁ w₂ hsh _ h₁ => ?_
    · exact wp_mono (hdecision.within w) (fun _ _ h => h.2 hw) fun _ _ h => h.2 hw
    · rw [hsh]
      exact h₁
  · have hsame : SameKeys w (final (handleUpdate cfg env x) w) :=
      handleUpdate_sameKeys fun q hq hkey => hclick ⟨q, hq, hkey⟩
    rw [hsame.2]
    exact hw

/-! ### What a decision comes to when its calls succeed -/

/-- The statements about the key succeed, the message to the requester is sent. -/
structure KeyEnv.Succeeds (kenv : KeyEnv) : Prop where
  selectKey : kenv.selectKey = .returns true
  insertKey : kenv.insertKey = .returns true
  commit : kenv.commit.Normal
  generated : kenv.generatedKey ≠ []
  decision : kenv.decision.Normal

theorem insertRevitKeyToDb_key (henv : kenv.Succeeds) (hs : Filled s.keys) :
    wp (insertRevitKeyToDb kenv u) (fun key s' => key ≠ [] ∧ s'.verdicts = s.verdicts) (fun _ _ => False) s := by
  have hselect : (s.log (.selectMasterKey (itoa u.chatUserTgId))).verdicts = s.verdicts := Shared.verdicts_other rfl
  simp only [insertRevitKeyToDb, wp_bind, wp_call, wp_get, wp_ite, wp_pure, henv.selectKey]
  refine ⟨fun selected hselected => ⟨fun hno => ?_, fun _ => ?_⟩, fun _ hn => (by cases hn)⟩
  · cases hselected
    cases hno
  · cases hfind : (s.log (.selectMasterKey (itoa u.chatUserTgId))).db.masterKeys.find? fun row =>
        row.tgId = itoa u.chatUserTgId ∧ row.isActivated = false with
    | some row => exact ⟨hs row (List.mem_of_find?_eq_some hfind), hselect⟩
    | none =>
      have hlogged {s₁ : Shared} (e : Effect) (he : e.verdict = none) (h : s₁.verdicts = s.verdicts) :
          (s₁.log e).verdicts = s.verdicts := (Shared.verdicts_other he).trans h
      simp only [wp_bind, wp_sql, wp_ite, wp_call, wp_pure, henv.insertKey]
      refine ⟨fun _ => ⟨fun _ => ⟨fun _ _ => ?_, fun x hx => ?_⟩, fun hn => absurd trivial hn⟩,
        fun hn => (by cases hn), fun _ hn => (by cases hn)⟩
      · exact ⟨henv.generated, hlogged _ rfl (hlogged (.insertMasterKey _) rfl hselect)⟩
      · exact henv.commit.not_throws hx

/-- The last lines of both decisions tell nobody a verdict. -/
theorem notified_untold {notice : Text} (hnotice : ∀ id, (Effect.sendMessage (.user id) notice).verdict = none) :
    wp (do inThread (service (sendMsgToStaff cfg notice .none kenv.staff)); clearRequest)
      (fun _ d => d.sh.verdicts = c.sh.verdicts) (fun _ d => d.sh.verdicts = c.sh.verdicts) c := by
  have huntold : Frames Shared.verdicts (sendMsgToStaff cfg notice .none kenv.staff) :=
    sendMsgToStaff_untold hnotice kenv.staff
  simp only [wp_bind, wp_inThread, wp_service, clearRequest, wp_modifyTask]
  refine wp_mono (huntold.keeps c.sh) (fun _ _ h => h) fun stop _ h => ?_
  cases stop <;> exact h.2

theorem approveKey_delivers (henv : kenv.Succeeds) (hkeys : Filled c.sh.keys) (hreason : c.reason ≠ []) :
    wp (approveKey cfg kenv q requester)
      (fun _ d => ∃ key, key ≠ [] ∧ d.sh.verdicts = c.sh.verdicts ++ [(requester, approvalText key)])
      (fun _ d => ∃ key, key ≠ [] ∧ d.sh.verdicts = c.sh.verdicts ++ [(requester, approvalText key)]) c := by
  have hlog : (c.sh.log (.decideKey true requester)).verdicts = c.sh.verdicts := Shared.verdicts_other rfl
  rw [approveKey, wp_bind, wp_get, wp_guarded]
  refine ⟨fun _ => ?_, fun hn => absurd hreason hn⟩
  rw [wp_bind, wp_service, wp_log, wp_bind, wp_service]
  refine wp_mono (insertRevitKeyToDb_key henv hkeys) ?_ fun _ _ hf => hf.elim
  rintro key sh ⟨hkey, hverdicts⟩
  have htold (kb : Keyboard) (parseMode : Text) :
      (sh.log (.sendMessage (.user requester) (approvalText key) kb parseMode)).verdicts =
        c.sh.verdicts ++ [(requester, approvalText key)] := by
    rw [Shared.verdicts_told (verdict_approval requester key kb parseMode), hverdicts, hlog]
  dsimp only
  rw [if_neg hkey, wp_bind, wp_service, wp_call]
  refine ⟨fun _ _ => ?_, fun x hx => absurd hx henv.decision.not_throws⟩
  have hnotice (id : Int) : (Effect.sendMessage (.user id)
      (comrade q ++ of ") одобрил запрос от " ++ c.ud.jiraTask.consumerName)).verdict = none := by
    rw [List.append_assoc]
    exact verdict_comrade q _ id _
  refine wp_mono (notified_untold hnotice) ?_ ?_
  all_goals exact fun _ _ h => ⟨key, hkey, h.trans (htold _ _)⟩

theorem rejectKey_delivers (henv : kenv.decision.Normal) (hreason : c.reason ≠ []) :
    wp (rejectKey cfg kenv q requester) (fun _ d => d.sh.verdicts = c.sh.verdicts ++ [(requester, refusalText)])
      (fun _ d => d.sh.verdicts = c.sh.verdicts ++ [(requester, refusalText)]) c := by
  have htold : ((c.sh.log (.decideKey false requester)).log (.sendMessage (.user requester) refusalText)).verdicts =
      c.sh.verdicts ++ [(requester, refusalText)] := by
    rw [Shared.verdicts_told (verdict_refusal requester .none []), Shared.verdicts_other rfl]
  rw [rejectKey, wp_bind, wp_get, wp_guarded]
  refine ⟨fun _ => ?_, fun hn => absurd hreason hn⟩
  rw [wp_bind, wp_service, wp_log, wp_bind, wp_service, wp_call]
  refine ⟨fun _ _ => ?_, fun x hx => absurd hx henv.not_throws⟩
  have hnotice (id : Int) : (Effect.sendMessage (.user id)
      (comrade q ++ of ") отклонил запрос от " ++ c.ud.jiraTask.consumerName)).verdict = none := by
    rw [List.append_assoc]
    exact verdict_comrade q _ id _
  refine wp_mono (notified_untold hnotice) ?_ ?_
  all_goals exact fun _ _ h => h.trans htold

/-- What the requester is told: a key, or the refusal. -/
def Decision (approved : Bool) (text : Text) : Prop :=
  if approved then ∃ key, key ≠ [] ∧ text = approvalText key else text = refusalText

theorem World.session_of_reason (h : w.reason requester ≠ []) :
    ∃ u, w.session requester = some u ∧ u.jiraTask.keyReason ≠ [] := by
  cases hu : w.session requester with
  | none =>
    rw [World.reason, hu] at h
    exact absurd rfl h
  | some u =>
    rw [World.reason_of_session hu] at h
    exact ⟨u, rfl, h⟩

/-- An approval tells the requester the key, in his session. -/
theorem lookUpRequester_delivers (henv : kenv.Succeeds) (hkeys : Filled w.sh.keys) (happrove : isApprove q.data)
    (h0 : requester ≠ 0) (hreason : w.reason requester ≠ []) :
    wp (lookUpRequester cfg kenv q requester now)
      (fun _ w' => ∃ text, Decision true text ∧ w'.sh.verdicts = w.sh.verdicts ++ [(requester, text)])
      (fun _ w' => ∃ text, Decision true text ∧ w'.sh.verdicts = w.sh.verdicts ++ [(requester, text)]) w := by
  obtain ⟨u, hu, hopen⟩ := World.session_of_reason hreason
  refine wp_lookUpRequester (fun hs => ?_) (fun u' hu' _ _ => ?_) fun _ _ hno => absurd ⟨h0, happrove⟩ hno
  · rw [hs] at hu
    cases hu
  · obtain rfl := Option.some.inj (hu.symm.trans hu')
    have hdone {d : Chat} {w' : World} (hat' : w'.At requester d)
        (hd : ∃ key, key ≠ [] ∧ d.sh.verdicts = w.sh.verdicts ++ [(requester, approvalText key)]) :
        ∃ text, Decision true text ∧ w'.sh.verdicts = w.sh.verdicts ++ [(requester, text)] := by
      obtain ⟨-, -, -, hsh⟩ := hat'
      obtain ⟨key, hkey, hverdicts⟩ := hd
      exact ⟨approvalText key, ⟨key, hkey, rfl⟩, (congrArg Shared.verdicts hsh).trans hverdicts⟩
    refine wp_mono (approveKey_delivers henv hkeys hopen) (fun _ d hd w' hat' _ => hdone hat' hd) ?_
    exact fun _ d hd w' hat' _ => ⟨fun _ => hdone hat' hd, fun _ => hdone hat' hd⟩

/-- For a refusal the session is found, and nothing done yet. -/
theorem lookUpRequester_finds (hno : ¬isApprove q.data) (hu : w.session requester = some u) :
    wp (lookUpRequester cfg kenv q requester now)
      (fun goesOn w' => goesOn = true ∧ w'.At requester ((⟨u, w.sh⟩ : Chat).touch now)) (fun _ _ => False) w := by
  refine wp_lookUpRequester (fun hs => ?_) (fun _ _ _ happrove => absurd happrove hno) fun u' hu' _ w' hat' _ => ?_
  · rw [hs] at hu
    cases hu
  · obtain rfl := Option.some.inj (hu.symm.trans hu')
    exact ⟨rfl, hat'⟩

theorem keyDecision_delivers (henv : kenv.Succeeds) (hkeys : Filled w.sh.keys) (hkey : isApprove q.data ∨ isReject q.data)
    (hreq : requesterId q.data = some requester) (h0 : requester ≠ 0) (hreason : w.reason requester ≠ []) :
    wp (keyDecision cfg kenv q now)
      (fun _ w' => ∃ text, Decision (isApprove q.data) text ∧ w'.sh.verdicts = w.sh.verdicts ++ [(requester, text)])
      (fun _ w' => ∃ text, Decision (isApprove q.data) text ∧ w'.sh.verdicts = w.sh.verdicts ++ [(requester, text)]) w := by
  unfold keyDecision
  rw [hreq]
  dsimp only
  rw [wp_bind]
  by_cases happrove : isApprove q.data = true
  · rw [happrove]
    refine wp_mono (lookUpRequester_delivers henv hkeys happrove h0 hreason) (fun goesOn w₁ h₁ => ?_) fun _ _ h => h
    rw [wp_bind, wp_get, wp_bind, wp_guarded]
    exact ⟨fun hreject => absurd happrove (isApprove_of_isReject hreject.2.2.2), fun _ => h₁⟩
  · rw [eq_false_of_ne_true happrove]
    obtain ⟨u, hu, hopen⟩ := World.session_of_reason hreason
    refine wp_mono (lookUpRequester_finds happrove hu) ?_ fun _ _ hf => hf.elim
    rintro goesOn w₁ ⟨rfl, hat₁⟩
    have hdone {d : Chat} {w₂ : World} (hat₂ : w₂.At requester d)
        (hd : d.sh.verdicts = w.sh.verdicts ++ [(requester, refusalText)]) :
        ∃ text, Decision false text ∧ w₂.sh.verdicts = w.sh.verdicts ++ [(requester, text)] := by
      obtain ⟨-, -, -, hsh⟩ := hat₂
      exact ⟨refusalText, rfl, (congrArg Shared.verdicts hsh).trans hd⟩
    have hpointer : w₁.uD.isSome = true := by
      obtain ⟨a, hp, -⟩ := hat₁
      rw [hp]
      rfl
    rw [wp_bind, wp_get, wp_bind, wp_guarded]
    refine ⟨fun _ => ?_, fun hno => absurd ⟨rfl, h0, hpointer, hkey.resolve_left happrove⟩ hno⟩
    refine wp_onSession hat₁ (wp_mono (rejectKey_delivers henv.decision hopen) ?_ ?_)
    all_goals exact fun _ d hd w₂ hat₂ _ => hdone hat₂ hd

end

/-! ### Clicks of staff -/

/-- A member of staff clicks on one of the two buttons under a request of the user. -/
structure CallbackQuery.Decides (q : CallbackQuery) (cfg : Config) (id : Int) : Prop where
  staff : cfg.hasRole q.from_.id .staff
  key : isApprove q.data ∨ isReject q.data
  requester : requesterId q.data = some id

/-- The decision of the click reaches the user. -/
def Delivers (cfg : Config) (id : Int) (env : UpdateEnv) (q : CallbackQuery) (w : World) : Prop :=
  ∃ text, Decision (isApprove q.data) text ∧ (⟨env, .callback q, w⟩ : Handled).told cfg id = [text]

section
variable {cfg : Config} {env : UpdateEnv} {q : CallbackQuery} {id : Int} {w w' : World}

theorem delivers_iff (hq : q.Decides cfg id) (henv : env.callback.key.Succeeds) (hkeys : Filled w.sh.keys) :
    Delivers cfg id env q w ↔ id ≠ 0 ∧ w.reason id ≠ [] := by
  have htold : (⟨env, .callback q, w⟩ : Handled).told cfg id =
      (((final (handleUpdate cfg env (.callback q)) w).sh.verdicts.drop w.sh.verdicts.length).filterMap fun v =>
        if v.1 = id then some v.2 else none) := if_pos ⟨hq.key, henv.decision⟩
  rw [Delivers, htold]
  constructor
  · rintro ⟨text, -, hone⟩
    by_contra hno
    have hnone : ∀ requester, requesterId q.data = some requester → requester = 0 ∨ w.reason requester = [] := by
      intro requester hrequester
      obtain rfl := Option.some.inj (hq.requester.symm.trans hrequester)
      by_contra hopen
      exact hno ⟨fun h0 => hopen (.inl h0), fun hreason => hopen (.inr hreason)⟩
    rw [(keyClick_undecided env hq.key hnone).1, List.drop_length] at hone
    cases hone
  · rintro ⟨h0, hreason⟩
    have hdone : ∃ text, Decision (isApprove q.data) text ∧
        (final (handleUpdate cfg env (.callback q)) w).sh.verdicts = w.sh.verdicts ++ [(id, text)] := by
      refine keyClick_final (P := fun w' => ∃ text, Decision (isApprove q.data) text ∧
        w'.sh.verdicts = w.sh.verdicts ++ [(id, text)]) hq.key (fun hn => absurd hq.staff hn) (fun _ => ?_) ?_
      · exact keyDecision_delivers henv hkeys hq.key hq.requester h0 hreason
      · intro w₁ w₂ hsh _ h₁
        rw [hsh]
        exact h₁
    obtain ⟨text, hdecision, hverdicts⟩ := hdone
    refine ⟨text, hdecision, ?_⟩
    rw [hverdicts, List.drop_left, List.filterMap_cons, if_pos rfl]
    rfl

end

end Chanserv
