import Chanserv.Filing.Script

/-! What is attached to the Jira issue, and under which key.

`create_task` returns issue numbers and error codes in one number, the files
that could not be downloaded stand as empty paths among the others, and the key
is put together again from the number. What Jira answered can be told apart from
these three only in some cases. -/
namespace Chanserv
open Text Program

/-- A photo or document as it was downloaded. -/
structure Fetched where
  outcome : Download
  uuid : Text
  fname : Text

namespace Fetched

/-- What `download_image_from_url` returns for it. -/
def path (f : Fetched) : Text := downloadImageFromUrl f.outcome f.uuid f.fname

def Succeeded (f : Fetched) : Prop := f.outcome = .answered 200 ∨ f.outcome = .answered 201

instance (f : Fetched) : Decidable f.Succeeded := inferInstanceAs (Decidable (_ ∨ _))

/-- A download leaves an empty path exactly if it fails. -/
theorem path_eq_nil {f : Fetched} : f.path = [] ↔ ¬f.Succeeded := by
  cases h : f.outcome with
  | answered status =>
    by_cases hs : status = 200 ∨ status = 201
    · have hpath : f.path = of "/tmp/" ++ f.uuid ++ f.fname.filter fun c => c ≠ '/' ∧ c ≠ '\\' := by
        rw [path, h, downloadImageFromUrl, if_pos hs]
      have hne : of "/tmp/" ≠ [] := by decide
      simp [hpath, hne, Succeeded, h, hs]
    · have hpath : f.path = [] := by
        rw [path, h, downloadImageFromUrl, if_neg hs]
      simpa [hpath, Succeeded, h] using hs
  | _ => simp [path, h, downloadImageFromUrl, Succeeded]

end Fetched

/-- The key in Jira's answer; none unless the creation was confirmed. -/
def createdKey (env : CreateIssueEnv) : Option Text :=
  match env.newTask with
  | .returns (.answered status (some v)) =>
    if isSuccess status then (v.at (of "key")).bind Json.Value.toText else none
  | _ => none

/-- The files uploaded, each with the key it went to. -/
def uploads (es : List Effect) : List (Text × Text) :=
  es.filterMap fun e =>
    match e with
    | .addAttach path key => some (path, key)
    | _ => none

/-- Support is told that there is no issue. -/
def Effect.isTaskReport (cfg : Config) : Effect → Bool
  | .sendMessage (.named id) text .goDashboard _ =>
    id = cfg.supportTgId && (of "Ошибка создания задачи Jira ").isPrefixOf text
  | _ => false

/-- The files that were downloaded go to the key Jira returned, each once and in order. Without
a key nothing is uploaded, and support is told if the issue was asked for. -/
def AttachesRight (cfg : Config) (env : CreateIssueEnv) (files : List Fetched) (es : List Effect) : Prop :=
  if es.any Effect.isCreateTask then
    match createdKey env with
    | some key => uploads es = (files.filter (·.Succeeded)).map fun f => (f.path, key)
    | none => uploads es = [] ∧ es.any (Effect.isTaskReport cfg)
  else uploads es = []

/-- The number `create_task` reads off a key. -/
def issueNumber (key : Text) : Int := toInt (atol (after '-' key))

/-- The key of an issue, for files downloaded so: none of them, or only failures and a number
taken for an error code, or no failure and the number of an issue of the project. -/
def KeyFits (proj : Text) (files : List Fetched) (key : Text) : Prop :=
  files = [] ∨ (issueNumber key < 3 ∧ ∀ f ∈ files, ¬f.Succeeded) ∨
    (3 ≤ issueNumber key ∧ key = proj ++ of "-" ++ itoa (issueNumber key) ∧ ∀ f ∈ files, f.Succeeded)

/-- The answers of Jira that are told apart. For one that succeeds and cannot be parsed support
hears something only when the administrator of Tekla cannot be told of the issue. -/
def AnswerSafe (env : CreateIssueEnv) (task : NewTask) (files : List Fetched) : Prop :=
  match env.newTask with
  | .returns (.answered status body) =>
    isSuccess status = true →
      match body with
      | none => files = [] ∧ isTekla task ∧ ¬env.teklaAdmin.Normal
      | some v => ∀ key, (v.at (of "key")).bind Json.Value.toText = some key →
        KeyFits (projName task) files key
  | _ => True

/-! ### What is uploaded -/

section
variable {cfg : Config} {env : CreateIssueEnv} {head : Text} {task : NewTask} {files : List Fetched}

theorem attempted_of_normal {ι : Type} {r : ι → Answer Unit} {is : List ι}
    (h : ∀ i ∈ is, (r i).Normal) : attempted r is = is := by
  induction is with
  | nil => rfl
  | cons i is ih =>
    rw [List.forall_mem_cons] at h
    rw [attempted, if_pos h.1, ih h.2]

theorem uploads_append (a b : List Effect) : uploads (a ++ b) = uploads a ++ uploads b :=
  List.filterMap_append

/-- The files are uploaded as they were left, empty paths included. -/
theorem uploads_attachments (n : Int) (hfiles : task.vLocalFilePaths = files.map Fetched.path)
    (hcalls : ∀ i < files.length, (env.addAttach i).Normal) :
    uploads (attachments env task n) =
      files.map fun f => (f.path, projName task ++ of "-" ++ itoa n) := by
  have hall : ∀ x ∈ task.vLocalFilePaths.zipIdx, (env.addAttach x.2).Normal := by
    apply (forall_mem_zipIdx (P := fun i => (env.addAttach i).Normal)).mpr
    rw [hfiles, List.length_map]
    exact hcalls
  have hpaths (xs : List (Text × Nat)) (key : Text) :
      uploads (xs.map fun x => .addAttach x.1 key) = (xs.map Prod.fst).map (·, key) := by
    induction xs with
    | nil => rfl
    | cons x xs ih => exact congrArg ((x.1, key) :: ·) ih
  rw [attachments, attempted_of_normal hall, hpaths, List.zipIdx_map_fst, hfiles, List.map_map]
  rfl

variable (task) in
/-- What is right for a key is uploaded exactly if the key fits. -/
theorem uploads_right_iff {key : Text} :
    (if issueNumber key < 3 then []
      else files.map fun f => (f.path, projName task ++ of "-" ++ itoa (issueNumber key))) =
        ((files.filter (·.Succeeded)).map fun f => (f.path, key)) ↔ KeyFits (projName task) files key := by
  by_cases hn : issueNumber key < 3
  · rw [if_pos hn, eq_comm, List.map_eq_nil_iff, List.filter_eq_nil_iff]
    simp only [decide_eq_true_eq]
    constructor
    · intro h
      exact .inr (.inl ⟨hn, h⟩)
    · rintro (rfl | ⟨-, h⟩ | ⟨hn', -⟩)
      · simp
      · exact h
      · omega
  · rw [if_neg hn]
    constructor
    · intro h
      by_cases hnil : files = []
      · exact .inl hnil
      · right; right
        have hlen := congrArg List.length h
        rw [List.length_map, List.length_map] at hlen
        have hall : ∀ f ∈ files, f.Succeeded := by
          have := List.length_filter_eq_length_iff.mp hlen.symm
          simpa using this
        refine ⟨by omega, ?_, hall⟩
        obtain ⟨f, rest, rfl⟩ := List.exists_cons_of_ne_nil hnil
        have hf : f.Succeeded := hall f (List.mem_cons_self ..)
        rw [List.filter_cons_of_pos (by simpa using hf), List.map_cons, List.map_cons, List.cons.injEq,
          Prod.mk.injEq] at h
        exact h.1.2.symm
    · rintro (rfl | ⟨hn', -⟩ | ⟨-, hkey, hall⟩)
      · rfl
      · omega
      · rw [← hkey, List.filter_eq_self.mpr (by simpa using hall)]

/-- A report that starts otherwise is none about Jira. -/
theorem isTaskReport_of_ne {start info : Text} (h : start.isPrefixOf (of "Ошибка создания задачи Jira ") = false)
    (h' : (of "Ошибка создания задачи Jira ").isPrefixOf start = false) :
    (supportReport cfg (start ++ info) task).isTaskReport cfg = false := by
  refine Bool.and_eq_false_iff.mpr (.inr ?_)
  rw [← Bool.not_eq_true, List.isPrefixOf_iff_prefix] at h h' ⊢
  intro hpre
  simp only [List.append_assoc] at hpre
  rcases List.prefix_or_prefix_of_prefix hpre (List.prefix_append start _) with hp | hp
  · exact h' hp
  · exact h hp

/-- Nothing before the request to Jira has to do with it. -/
theorem board_apart {u : UserDispatcher} {e : Effect} (he : e ∈ boardFiling cfg env head u) :
    e.isCreateTask = false ∧ uploads [e] = [] ∧ e.isTaskReport cfg = false := by
  rw [boardFiling, List.mem_append] at he
  rcases he with he | he
  · rcases mem_cardFiling he with rfl | ⟨info, rfl⟩
    · exact ⟨rfl, rfl, rfl⟩
    · exact ⟨rfl, rfl, isTaskReport_of_ne (by decide +kernel) (by decide +kernel)⟩
  · split at he
    · rcases mem_rowFiling he with rfl | ⟨info, hinfo, rfl⟩
      · exact ⟨rfl, rfl, rfl⟩
      · have hstart : ∀ info ∈ [of "Ошибка записи в базу данных.", of "Ошибка записи в базу данных PostgreSQL."],
            info.isPrefixOf (of "Ошибка создания задачи Jira ") = false ∧
              (of "Ошибка создания задачи Jira ").isPrefixOf info = false := by
          decide +kernel
        rw [← List.append_nil info]
        exact ⟨rfl, rfl, isTaskReport_of_ne (hstart info hinfo).1 (hstart info hinfo).2⟩
    · cases he

theorem jira_report {info : Text} :
    (supportReport cfg (of "Ошибка создания задачи Jira " ++ info) task).isTaskReport cfg = true := by
  refine Bool.and_eq_true_iff.mpr ⟨decide_eq_true rfl, ?_⟩
  rw [List.isPrefixOf_iff_prefix]
  simp only [List.append_assoc]
  exact List.prefix_append ..

theorem uploads_eq_nil {es : List Effect} (h : ∀ e ∈ es, uploads [e] = []) : uploads es = [] := by
  induction es with
  | nil => rfl
  | cons e es ih =>
    rw [List.forall_mem_cons] at h
    rw [← List.singleton_append, uploads_append, h.1, ih h.2]
    rfl

theorem attachesRight_append {board es : List Effect}
    (hboard : ∀ e ∈ board, e.isCreateTask = false ∧ uploads [e] = [] ∧ e.isTaskReport cfg = false) :
    AttachesRight cfg env files (board ++ es) ↔ AttachesRight cfg env files es := by
  have hany (p : Effect → Bool) (hp : ∀ e ∈ board, p e = false) : (board ++ es).any p = es.any p := by
    rw [List.any_append, List.any_eq_false.mpr fun e he => by simp [hp e he], Bool.false_or]
  have huploads : uploads (board ++ es) = uploads es := by
    rw [uploads_append, uploads_eq_nil fun e he => (hboard e he).2.1, List.nil_append]
  unfold AttachesRight
  rw [hany _ fun e he => (hboard e he).1, hany _ fun e he => (hboard e he).2.2, huploads]

/-! ### What Jira's part files, by the number of `create_task` -/

/-- No number, or one below 3. -/
theorem jira_refused (h : ∀ n, taskOutcome env.newTask = .returns n → n < 3) :
    uploads (jiraFiling cfg env head task) = [] ∧
      (jiraFiling cfg env head task).any (Effect.isTaskReport cfg) := by
  cases hn : taskOutcome env.newTask with
  | throws e =>
    constructor
    · simp [jiraFiling, hn, uploads, supportReport]
    · simp [jiraFiling, hn, jira_report]
  | returns n =>
    have hcode := h n hn
    constructor
    · by_cases hr : env.taskReport.Normal <;> simp [jiraFiling, hn, hcode, hr, uploads, supportReport]
    · simp [jiraFiling, hn, hcode, jira_report]

/-- A number taken for that of an issue. -/
theorem jira_counted {n : Int} (hn : taskOutcome env.newTask = .returns n) (hcode : ¬n < 3)
    (hfiles : task.vLocalFilePaths = files.map Fetched.path)
    (hcalls : ∀ i < files.length, (env.addAttach i).Normal) :
    uploads (jiraFiling cfg env head task) =
        (files.map fun f => (f.path, projName task ++ of "-" ++ itoa n)) ∧
      ((jiraFiling cfg env head task).any (Effect.isTaskReport cfg) ↔
        isTekla task ∧ ¬env.teklaAdmin.Normal) := by
  have hattaches : AttachesAll env task ↔ (isTekla task → env.teklaAdmin.Normal) := by
    rw [AttachesAll, hfiles, List.length_map]
    exact ⟨fun h => h.2, fun h => ⟨hcalls, h⟩⟩
  have hattached : (attachments env task n).any (Effect.isTaskReport cfg) = false := by
    rw [attachments, List.any_map]
    exact List.any_eq_false.mpr fun _ _ => by simp [Effect.isTaskReport]
  have hasked (body : Text) : (Effect.createTask body).isTaskReport cfg = false := rfl
  rw [jiraFiling, hn]
  dsimp only
  rw [if_neg hcode, ← uploads_attachments n hfiles hcalls]
  constructor
  · show uploads (_ ++ _) = _
    rw [uploads_append]
    by_cases ha : AttachesAll env task <;> simp [ha, uploads, supportReport]
  · rw [List.any_cons, List.any_append, hattached, hasked, ← Classical.not_imp, ← hattaches]
    by_cases ha : AttachesAll env task <;> simp [ha, jira_report]

/-- No issue is confirmed, and none is counted. -/
theorem jira_right_of_refused (hkey : createdKey env = none)
    (h : ∀ n, taskOutcome env.newTask = .returns n → n < 3) :
    AttachesRight cfg env files (jiraFiling cfg env head task) := by
  have hasked : (jiraFiling cfg env head task).any Effect.isCreateTask = true := rfl
  rw [AttachesRight, if_pos hasked, hkey]
  exact jira_refused h

/-- A confirmation that is no document is taken for the third issue. -/
theorem jira_right_unread {status : Nat} (hr : env.newTask = .returns (.answered status none)) (hs : isSuccess status)
    (hfiles : task.vLocalFilePaths = files.map Fetched.path) (hcalls : ∀ i < files.length, (env.addAttach i).Normal) :
    AttachesRight cfg env files (jiraFiling cfg env head task) ↔ AnswerSafe env task files := by
  have hasked : (jiraFiling cfg env head task).any Effect.isCreateTask = true := rfl
  have hn : taskOutcome env.newTask = .returns 3 := by simp [taskOutcome, hr, hs]
  have hkey : createdKey env = none := by rw [createdKey, hr]
  have hcounted : uploads (jiraFiling cfg env head task) = _ ∧
      ((jiraFiling cfg env head task).any (Effect.isTaskReport cfg) ↔ _) :=
    jira_counted hn (by decide) hfiles hcalls
  obtain ⟨huploads, hreport⟩ := hcounted
  rw [AttachesRight, if_pos hasked, hkey, huploads, hreport, List.map_eq_nil_iff, AnswerSafe, hr]
  simp [hs]

/-- The confirmation names the issue. -/
theorem jira_right_of_key {status : Nat} {v : Json.Value} {key : Text}
    (hr : env.newTask = .returns (.answered status (some v))) (hs : isSuccess status)
    (hv : (v.at (of "key")).bind Json.Value.toText = some key)
    (hfiles : task.vLocalFilePaths = files.map Fetched.path) (hcalls : ∀ i < files.length, (env.addAttach i).Normal) :
    AttachesRight cfg env files (jiraFiling cfg env head task) ↔ AnswerSafe env task files := by
  have hasked : (jiraFiling cfg env head task).any Effect.isCreateTask = true := rfl
  have hkey : createdKey env = some key := by
    rw [createdKey, hr, ← hv]
    exact if_pos hs
  have hn : taskOutcome env.newTask = .returns (issueNumber key) := by
    simp [taskOutcome, hr, hs, hv, issueNumber]
  have hsafe : AnswerSafe env task files ↔ KeyFits (projName task) files key := by
    rw [AnswerSafe, hr]
    simp [hs, hv]
  rw [AttachesRight, if_pos hasked, hkey, hsafe, ← uploads_right_iff task]
  dsimp only
  by_cases hcode : issueNumber key < 3
  · have hlow : ∀ n, taskOutcome env.newTask = .returns n → n < 3 := by
      intro n hn'
      rw [hn, Reply.returns.injEq] at hn'
      omega
    rw [(jira_refused hlow).1, if_pos hcode]
  · rw [(jira_counted hn hcode hfiles hcalls).1, if_neg hcode]

variable (cfg head task) in
theorem jira_right_iff (hfiles : task.vLocalFilePaths = files.map Fetched.path)
    (hcalls : ∀ i < files.length, (env.addAttach i).Normal) :
    AttachesRight cfg env files (jiraFiling cfg env head task) ↔ AnswerSafe env task files := by
  cases hr : env.newTask with
  | throws e =>
    have hsafe : AnswerSafe env task files := by rw [AnswerSafe, hr]; trivial
    exact iff_of_true (jira_right_of_refused (by rw [createdKey, hr]) (by simp [taskOutcome, hr])) hsafe
  | returns reply =>
    cases reply with
    | noHandle | failed =>
      have hsafe : AnswerSafe env task files := by rw [AnswerSafe, hr]; trivial
      exact iff_of_true (jira_right_of_refused (by rw [createdKey, hr]) (by simp [taskOutcome, hr])) hsafe
    | answered status body =>
      by_cases hs : isSuccess status
      · cases body with
        | none => exact jira_right_unread hr hs hfiles hcalls
        | some v =>
          cases hv : (v.at (of "key")).bind Json.Value.toText with
          | none =>
            have hsafe : AnswerSafe env task files := by
              rw [AnswerSafe, hr]
              simp [hv]
            have hkey : createdKey env = none := by
              rw [createdKey, hr, ← hv]
              exact if_pos hs
            exact iff_of_true (jira_right_of_refused hkey (by simp [taskOutcome, hr, hs, hv])) hsafe
          | some key => exact jira_right_of_key hr hs hv hfiles hcalls
      · have hn : taskOutcome env.newTask = .returns 2 := by simp [taskOutcome, hr, hs]
        have hkey : createdKey env = none := by
          rw [createdKey, hr]
          cases body with
          | none => rfl
          | some v => exact if_neg hs
        have hsafe : AnswerSafe env task files := by
          rw [AnswerSafe, hr]
          intro h
          exact absurd h hs
        exact iff_of_true (jira_right_of_refused hkey (by simp [hn])) hsafe

end

/-- What is attached is right exactly if the request is not made, or Jira's answer is one the
code tells apart. -/
theorem attachments_under_own_key (cfg : Config) (env : CreateIssueEnv) (message : Message) (c : Chat)
    (files : List Fetched) (hfiles : c.ud.jiraTask.vLocalFilePaths = files.map Fetched.path)
    (hcalls : ∀ i < files.length, (env.addAttach i).Normal) :
    AttachesRight cfg env files (filings (createNewIssue cfg env message) c) ↔
      (Requested cfg env c.ud → AnswerSafe env c.ud.jiraTask files) := by
  obtain ⟨board, heq, hboard⟩ := filing_eq cfg env message c.ud
  rw [filings_createNewIssue, heq, attachesRight_append fun e he => board_apart (hboard e he).2]
  by_cases hreq : Requested cfg env c.ud
  · have hjira := jira_right_iff cfg (cardDescription message.chat.username c.ud.jiraTask)
      (prepared env c.ud).jiraTask hfiles hcalls
    rw [if_pos hreq, hjira]
    exact ⟨fun h _ => h, fun h => h hreq⟩
  · rw [if_neg hreq]
    exact iff_of_true rfl fun h => absurd h hreq

/-- The answer to the request names an issue of the project: the one photo goes there. -/
theorem attachments_under_own_key_photo :
    let photo : Fetched := ⟨.answered 200, of "u1", of "photos/1.jpg"⟩
    let task : NewTask := {type := of "BIMTASK", vLocalFilePaths := [photo.path]}
    let c : Chat := ⟨{chatUserTgId := 1, chatUserTgName := [], chatUserFirstName := [], jiraTask := task}, {}⟩
    let message : Message := {messageId := 1, from_ := ⟨1, [], of "a"⟩, chat := ⟨1, of "a"⟩}
    AttachesRight {} .calm [photo] (filings (createNewIssue {} .calm message) c) := by
  intro photo task c message
  have hfiles : c.ud.jiraTask.vLocalFilePaths = [photo].map Fetched.path := List.map_singleton.symm
  have hiff := attachments_under_own_key {} .calm message c [photo] hfiles fun _ _ => trivial
  rw [hiff]
  intro _ _ key hkey
  obtain rfl : of "USERTASKS-7" = key := by simpa [Json.Value.at, Json.Value.toText, of] using hkey
  exact .inr (.inr ⟨by decide +kernel, by decide +kernel, by decide⟩)

/-- Jira creates an issue but its answer is cut off: the photo goes to USERTASKS-3, and support
hears nothing. -/
theorem cut_answer_misattaches :
    let photo : Fetched := ⟨.answered 200, of "u1", of "photos/1.jpg"⟩
    let task : NewTask := {type := of "BIMTASK", vLocalFilePaths := [photo.path]}
    let c : Chat := ⟨{chatUserTgId := 1, chatUserTgName := [], chatUserFirstName := [], jiraTask := task}, {}⟩
    let message : Message := {messageId := 1, from_ := ⟨1, [], of "a"⟩, chat := ⟨1, of "a"⟩}
    let env : CreateIssueEnv := {CreateIssueEnv.calm with newTask := .returns (.answered 201 none)}
    uploads (filings (createNewIssue {} env message) c) = [(photo.path, of "USERTASKS-3")] ∧
      ¬AttachesRight {} env [photo] (filings (createNewIssue {} env message) c) := by
  intro photo task c message env
  have huploads : uploads (filings (createNewIssue {} env message) c) = [(photo.path, of "USERTASKS-3")] := by
    rw [filings_createNewIssue]
    decide +kernel
  have hasked : (filings (createNewIssue {} env message) c).any Effect.isCreateTask = true := by
    rw [filings_createNewIssue]
    decide +kernel
  refine ⟨huploads, fun h => ?_⟩
  rw [AttachesRight, if_pos hasked] at h
  have hnone : uploads (filings (createNewIssue {} env message) c) = [] := h.1
  rw [huploads] at hnone
  cases hnone

end Chanserv
