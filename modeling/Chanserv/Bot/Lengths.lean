import Chanserv.Bot.Announcements
import Chanserv.Bot.FamilyTasks

/-! How long the messages are that are built from what users say.

A caption is cut in time. The notice about a request for a key joins two texts that
are cut one by one, and the message about an issue joins answers that grew when they
were escaped; neither is cut again. -/
namespace Chanserv
open Text Program

/-- The UTF-16 units Telegram takes in a message. -/
def messageLimit : Nat := 4096

/-- And in a caption. -/
def captionLimit : Nat := 1024

/-! ### Captions -/

theorem units_le_utf8Size (c : Char) : units c ≤ c.utf8Size := by
  unfold units
  split
  · next hlarge =>
    have hfour : c.utf8Size = 4 := Char.utf8Size_eq_four_iff.mpr (UInt32.lt_iff_toNat_lt.mpr hlarge)
    rw [hfour]
    decide
  · exact Char.utf8Size_pos c

theorem utf16Length_le_utf8Length (t : Text) : utf16Length t ≤ utf8Length t := by
  induction t with
  | nil => exact Nat.le_refl _
  | cons c t ih => exact Nat.add_le_add (units_le_utf8Size c) ih

theorem utf16Length_truncate_le (t : Text) (width : Nat) : utf16Length (truncateMsgFromUser t width) ≤ width + 3 := by
  unfold truncateMsgFromUser
  split
  · have hcut := utf16Length_takeUnits_le width t
    have hdots : utf16Length (of "...") = 3 := by decide
    rw [utf16Length_append, hdots]
    omega
  · omega

/-- A caption always fits. -/
theorem caption_fits (issue : PgdbIssue) : utf16Length (caption issue) ≤ captionLimit := by
  rw [caption]
  split
  · have hcut := utf16Length_truncate_le (builtMsg issue) 1000
    unfold captionLimit
    omega
  · have hbytes := utf16Length_le_utf8Length (builtMsg issue)
    unfold captionLimit
    omega

/-! ### The message about an issue -/

/-- The message of the list that shows an issue is within its limit. -/
def ListedFits (issue : PgdbIssue) : Prop :=
  if issue.photos = [] then utf16Length (builtMsg issue) ≤ messageLimit
  else utf16Length (caption issue) ≤ captionLimit

/-- The units the answers of a task have when they are escaped, but for its subject and category. -/
def answerUnits (t : NewTask) : Nat :=
  utf16Length (escapeJsonEntireText (t.section_.filter (· ≠ ' '))) + utf16Length (escapeJsonEntireText t.project) +
    utf16Length (escapeJsonEntireText t.consumerName) + utf16Length (escapeJsonEntireText t.description)

/-- The answers leave room for the number, the time, the link and what the message says besides: 71
units, or 139 in the template for families, which has the category and is brought by its subject. -/
def Roomy (id : Int) (created : Text) (t : NewTask) : Prop :=
  utf16Length (itoa id) + utf16Length created + utf16Length t.consumerTgUsernameLink + answerUnits t +
      (if t.subj = familyTheme then 139 + utf16Length (escapeJsonEntireText t.category)
        else 71 + utf16Length (escapeJsonEntireText t.subj)) ≤ messageLimit

section
variable {t : NewTask} {r : IssueRow} {created : Text}

theorem escaped_familyTheme : escapeJsonEntireText familyTheme = familyTheme := by decide

theorem theme_iff (t : NewTask) : escapeJsonEntireText t.subj = familyTheme ↔ t.subj = familyTheme := by
  constructor
  · exact fun h => eq_of_escaped h (by decide)
  · intro h
    rw [h]
    exact escaped_familyTheme

theorem generalMsg_units (issue : PgdbIssue) : utf16Length (generalMsg issue) =
    67 + utf16Length (itoa issue.id) + utf16Length issue.unit + utf16Length issue.theme + utf16Length issue.project +
      utf16Length issue.fromWhom + utf16Length issue.creationDate + utf16Length issue.description := by
  have hfixed : utf16Length (of "UIN: ") = 5 ∧ utf16Length (of "\nРаздел: ") = 9 ∧ utf16Length (of "\nТема: ") = 7 ∧
      utf16Length (of "\nПроект: ") = 9 ∧ utf16Length (of "\nОт кого: ") = 10 ∧
      utf16Length (of "\nДата создания: ") = 16 ∧ utf16Length (of "\nОписание: ") = 11 := by decide
  simp only [generalMsg, utf16Length_append]
  omega

theorem familyMsg_units (issue : PgdbIssue) : utf16Length (familyMsg issue) =
    117 + utf16Length (itoa issue.id) + utf16Length issue.theme + utf16Length issue.unit +
      utf16Length issue.category + utf16Length issue.project + utf16Length issue.fromWhom +
      utf16Length issue.creationDate + utf16Length issue.description := by
  have hfixed : utf16Length (of "ID%: ") = 5 ∧ utf16Length (of " | ") = 3 ∧
      utf16Length (of "\nВыполнение строго в Revit 2022❗") = 32 ∧ utf16Length (of "\nРаздел: ") = 9 ∧
      utf16Length (of "\nКатегория: ") = 12 ∧ utf16Length (of "\nПуть до тех.док.: ") = 19 ∧
      utf16Length (of "\nОт кого: ") = 10 ∧ utf16Length (of "\nДата создания: ") = 16 ∧
      utf16Length (of "\nОписание: ") = 11 := by decide
  simp only [familyMsg, utf16Length_append]
  omega

theorem builtMsg_fits_iff (p : Nat) (htexts : r.texts = (rowOfTask (escapedTask created t)).texts) :
    utf16Length (builtMsg (issueOfRow p r)) ≤ messageLimit ↔ Roomy r.id created t := by
  simp only [IssueRow.texts, List.cons.injEq] at htexts
  obtain ⟨hname, hlink, hsection, hcategory, htheme, hdescription, hcreated, -, hproject, -⟩ := htexts
  have hfrom : utf16Length (issueOfRow p r).fromWhom =
      utf16Length (escapeJsonEntireText t.consumerName) + 4 + utf16Length t.consumerTgUsernameLink := by
    have hfixed : utf16Length (of " (@") = 3 ∧ utf16Length (of ")") = 1 := by decide
    simp only [issueOfRow, utf16Length_append, hname, hlink]
    dsimp only [rowOfTask, escapedTask]
    omega
  have hunit : (issueOfRow p r).unit = _ := hsection
  have hcat : (issueOfRow p r).category = _ := hcategory
  have hsubj : (issueOfRow p r).theme = _ := htheme
  have hdescr : (issueOfRow p r).description = _ := hdescription
  have hdate : (issueOfRow p r).creationDate = _ := hcreated
  have hproj : (issueOfRow p r).project = _ := hproject
  have hid : (issueOfRow p r).id = r.id := rfl
  rw [builtMsg_eq, Roomy, answerUnits]
  by_cases hmarked : t.subj = familyTheme
  · have hshown : (issueOfRow p r).theme = familyTheme := hsubj.trans ((theme_iff t).mpr hmarked)
    have hunits : utf16Length familyTheme = 18 := by decide
    rw [if_pos hshown, if_pos hmarked, familyMsg_units, hshown, hfrom, hunit, hcat, hdescr, hdate, hproj, hid, hunits]
    dsimp only [rowOfTask, escapedTask]
    omega
  · have hshown : (issueOfRow p r).theme ≠ familyTheme := fun h => hmarked ((theme_iff t).mp (hsubj.symm.trans h))
    rw [if_neg hshown, if_neg hmarked, generalMsg_units, hfrom, hunit, hsubj, hdescr, hdate, hproj, hid]
    dsimp only [rowOfTask, escapedTask]
    omega

theorem listedFits_iff (p : Nat) (htexts : r.texts = (rowOfTask (escapedTask created t)).texts) :
    ListedFits (issueOfRow p r) ↔ (splitPhotos r.photos = [] → Roomy r.id created t) := by
  have hphotos : (issueOfRow p r).photos = splitPhotos r.photos := rfl
  rw [ListedFits, hphotos]
  split
  · next hnone =>
    rw [builtMsg_fits_iff p htexts]
    exact ⟨fun h _ => h, fun h => h hnone⟩
  · next hsome => exact ⟨fun _ hnone => absurd hnone hsome, fun _ => caption_fits _⟩

end

/-! ### The notice about a request -/

theorem noticeText_units (name reason : Text) :
    utf16Length (noticeText name reason) = 36 + utf16Length name + utf16Length reason := by
  have hfixed : utf16Length (of "Запрос одобрения ключа от ") = 26 ∧ utf16Length (of " Причина: ") = 10 := by decide
  simp only [noticeText, utf16Length_append]
  omega

section
variable {cfg : Config} {rows₀ : List IssueRow} {hist : List Handled} {w : World} {env : UpdateEnv} {m : Message}

/-- If there is anybody to get it, the notice fits exactly if name and reason, each cut, have 4060 units. -/
theorem notices_fit_iff (hheard : (heard cfg env w (.message m)).map Prod.fst = some revitMasterKeyFirstnameStep2) :
    (∀ n ∈ Handled.notices cfg ⟨env, .message m, w⟩, utf16Length n.2.1 ≤ messageLimit) ↔
      (cfg.vStaff ≠ [] → utf16Length (cleanDescription m.text) + utf16Length (w.reason m.from_.id) ≤ 4060) := by
  obtain ⟨told, rest, hstaff, htold, -, hnotices⟩ := Handled.notices_named hheard
  have hunits := noticeText_units (cleanDescription m.text) (w.reason m.from_.id)
  rw [hnotices, noticesTo, List.forall_mem_map]
  dsimp only
  rw [hunits, messageLimit]
  constructor
  · intro hfit hsome
    cases told with
    | nil =>
      rw [hstaff, htold rfl] at hsome
      exact absurd rfl hsome
    | cons employee told =>
      have hfirst := hfit employee (List.mem_cons_self ..)
      omega
  · intro hroom employee hmem
    have hsum := hroom fun hnone => by
      rw [hnone] at hstaff
      rw [(List.append_eq_nil_iff.mp hstaff.symm).1] at hmem
      cases hmem
    omega

/-- In all lives of the bot: a notice about a request fits exactly if name and reason leave room for the
rest; and the message that shows an issue filed meanwhile exactly if it has photos or its answers do, whichever
filing it is from. -/
theorem messages_fit_iff (hs : Serves cfg rows₀ hist w) :
    (∀ env m, (heard cfg env w (.message m)).map Prod.fst = some revitMasterKeyFirstnameStep2 →
      ((∀ n ∈ Handled.notices cfg ⟨env, .message m, w⟩, utf16Length n.2.1 ≤ messageLimit) ↔
        (cfg.vStaff ≠ [] → utf16Length (cleanDescription m.text) + utf16Length (w.reason m.from_.id) ≤ 4060))) ∧
    ∀ r ∈ w.sh.db.issues, (∀ s ∈ rows₀, r.texts ≠ s.texts) →
      (∃ hist h, FiledAfter cfg hist h r) ∧
        ∀ (hist : List Handled) (h : Handled) (task : NewTask) (created : Text), Run cfg hist h.before →
          .createNewIssue task ∈ h.effects cfg → r.texts = (rowOfTask (escapedTask created task)).texts →
          ∀ p, ListedFits (issueOfRow p r) ↔ (splitPhotos r.photos = [] → Roomy r.id created task) := by
  refine ⟨fun env m hheard => notices_fit_iff hheard, fun r hr hnew => ⟨?_, ?_⟩⟩
  · rcases hs.sourced r hr with ⟨s, hs, htexts⟩ | hfiled
    · exact absurd htexts (hnew s hs)
    · exact hfiled
  · exact fun _ _ _ _ _ _ htexts p => listedFits_iff p htexts

end

/-! ### Two texts that do not fit into one message -/

def longText : Text := List.replicate 2100 'a'

/-- A user asks for a key, with a long reason. -/
def longRequest : List (UpdateEnv × Update) :=
  [startFrom 6, clickFrom 6 "req_master_key",
    .message { messageId := 2, from_ := ⟨6, [], []⟩, chat := ⟨6, []⟩, text := longText }].map
    fun x => (UpdateEnv.calm 0, x)

/-- And gives a name as long. -/
def longName : Message := { messageId := 3, from_ := ⟨6, [], []⟩, chat := ⟨6, []⟩, text := longText }

theorem longRequest_serves : Serves staff7 [] (played staff7 longRequest {}).1 (played staff7 longRequest {}).2 := by
  have hstart : Serves staff7 [] [] {} := .start rfl rfl
  have halive : survives staff7 longRequest {} = true := by decide +kernel
  have hserves := hstart.played halive
  rwa [List.nil_append] at hserves

theorem longName_heard : (heard staff7 (.calm 0) (played staff7 longRequest {}).2 (.message longName)).map Prod.fst =
    some revitMasterKeyFirstnameStep2 := by decide +kernel

theorem notice_too_long : ¬∀ cfg rows₀ hist w, Serves cfg rows₀ hist w →
    (∀ env m, (heard cfg env w (.message m)).map Prod.fst = some revitMasterKeyFirstnameStep2 →
      ∀ n ∈ Handled.notices cfg ⟨env, .message m, w⟩, utf16Length n.2.1 ≤ messageLimit) ∧
    ∀ r ∈ w.sh.db.issues, (∀ s ∈ rows₀, r.texts ≠ s.texts) → ∀ p, ListedFits (issueOfRow p r) := by
  intro hall
  have hfit := (hall staff7 [] _ _ longRequest_serves).1 (.calm 0) longName longName_heard
  have hroom := (notices_fit_iff longName_heard).mp hfit (by decide)
  revert hroom
  decide +kernel

/-- Before, the user has filed a family. -/
def listedRequest : List (UpdateEnv × Update) := familyAnswers ++ (UpdateEnv.calm 0, lastAnswer) :: longRequest

theorem listedRequest_serves : Serves staff7 [] (played staff7 listedRequest {}).1 (played staff7 listedRequest {}).2 := by
  have hstart : Serves staff7 [] [] {} := .start rfl rfl
  have halive : survives staff7 listedRequest {} = true := by decide +kernel
  have hserves := hstart.played halive
  rwa [List.nil_append] at hserves

/-- The notice does not fit, the message about the family does. -/
theorem messages_fit_iff_request :
    ((∀ n ∈ Handled.notices staff7 ⟨.calm 0, .message longName, (played staff7 listedRequest {}).2⟩,
        utf16Length n.2.1 ≤ messageLimit) ↔
      (staff7.vStaff ≠ [] →
        utf16Length (cleanDescription longName.text) +
          utf16Length ((played staff7 listedRequest {}).2.reason longName.from_.id) ≤ 4060)) ∧
    (played staff7 listedRequest {}).2.sh.db.issues.map IssueRow.id = [300] ∧
    ∀ r ∈ (played staff7 listedRequest {}).2.sh.db.issues, ∀ p,
      ListedFits (issueOfRow p r) ↔ (splitPhotos r.photos = [] → Roomy r.id (of "01.01.2025") familyTask) := by
  obtain ⟨hnotices, hlisted⟩ := messages_fit_iff listedRequest_serves
  have hheard : (heard staff7 (.calm 0) (played staff7 listedRequest {}).2 (.message longName)).map Prod.fst =
      some revitMasterKeyFirstnameStep2 := by decide +kernel
  have hrun : Run staff7 (played staff7 familyAnswers {}).1 (played staff7 familyAnswers {}).2 := by
    have hstart : Run staff7 [] {} := .start rfl
    have halive : survives staff7 familyAnswers {} = true := by decide +kernel
    exact hstart.played halive
  have htask : .createNewIssue familyTask ∈
      Handled.effects staff7 ⟨.calm 0, lastAnswer, (played staff7 familyAnswers {}).2⟩ := by decide +kernel
  have htexts : (played staff7 listedRequest {}).2.sh.db.issues.map IssueRow.texts =
      [(rowOfTask (escapedTask (of "01.01.2025") familyTask)).texts] := by decide +kernel
  refine ⟨hnotices (.calm 0) longName hheard, by decide +kernel, fun r hr => ?_⟩
  have hrow : r.texts = (rowOfTask (escapedTask (of "01.01.2025") familyTask)).texts := by
    have hmem := List.mem_map_of_mem (f := IssueRow.texts) hr
    rw [htexts] at hmem
    exact List.mem_singleton.mp hmem
  exact (hlisted r hr fun _ hs => absurd hs List.not_mem_nil).2 _ ⟨.calm 0, lastAnswer, _⟩ familyTask _ hrun htask hrow

end Chanserv
