import Chanserv.Bot.FiledRows
import Chanserv.Bot.Listing

/-! The photos of an issue.

`receive_photos` writes the ids of a task's photos one after another, each with a
backslash and an `n` behind it; the text goes with the task into its row, and
`get_my_issues` splits it again. -/
namespace Chanserv
open Text Program

/-! ### The code -/

/-- The ids as they are stored. -/
def joinPhotos (ids : List Text) : Text := ids.flatMap fun id => id ++ of "\\n"

/-- An id that can be told from its neighbours. -/
def PhotoId (id : Text) : Prop := id ≠ [] ∧ '\\' ∉ id

instance (id : Text) : Decidable (PhotoId id) := inferInstanceAs (Decidable (_ ∧ _))

theorem joinPhotos_append (ids ids' : List Text) : joinPhotos (ids ++ ids') = joinPhotos ids ++ joinPhotos ids' :=
  List.flatMap_append

/-- A part ends at the first backslash if an `n` follows. -/
theorem splitPhotos_go_part {id : Text} (h : '\\' ∉ id) (part t : Text) :
    splitPhotos.go (id ++ of "\\n" ++ t) part = (part.reverse ++ id) :: splitPhotos.go t [] := by
  induction id generalizing part with
  | nil =>
    rw [List.append_nil]
    rfl
  | cons c id ih =>
    rw [List.mem_cons, not_or] at h
    have hstep : splitPhotos.go (c :: (id ++ of "\\n" ++ t)) part = splitPhotos.go (id ++ of "\\n" ++ t) (c :: part) := by
      rw [splitPhotos.go]
      rintro rest rfl
      exact absurd rfl h.1
    rw [List.cons_append, List.cons_append, hstep, ih h.2, List.reverse_cons, List.append_assoc]
    rfl

/-- **What is joined is split again.** -/
theorem splitPhotos_join {ids : List Text} (h : ∀ id ∈ ids, PhotoId id) : splitPhotos (joinPhotos ids) = ids := by
  have hgo : splitPhotos.go (joinPhotos ids) [] = ids ++ [[]] := by
    induction ids with
    | nil => rfl
    | cons id ids ih =>
      rw [List.forall_mem_cons] at h
      rw [joinPhotos, List.flatMap_cons, splitPhotos_go_part h.1.2, ← joinPhotos, ih h.2]
      rfl
  have hids : ids.filter (fun id => id ≠ []) = ids :=
    List.filter_eq_self.mpr fun id hid => decide_eq_true (h id hid).1
  rw [splitPhotos, hgo, List.filter_append, hids]
  exact List.append_nil ids

/-! ### Receiving -/

/-- The ids a message adds to a task: that of its biggest photo, once Telegram has named the file
and the download, if it came to one, has returned. -/
def appendedIds (env : PhotosEnv) (m : Message) : List Text :=
  if m.photo = [] then []
  else match env.photoPath with
    | .throws _ => []
    | .returns path => if path = [] ∨ env.photo.Normal then [biggestPhoto m] else []

/-- The same for a message that comes at the photo step; one with a text is taken for another answer. -/
def photosSent (env : SmallTalkEnv) (m : Message) : List Text :=
  if m.text = [] then appendedIds env.photos m else []

def Chat.photoIDs (c : Chat) : Text := c.ud.jiraTask.photoIDs

section
variable {α : Type} {cfg : Config} {penv : PhotosEnv} {env : SmallTalkEnv} {m : Message} {c : Chat}

instance {m : ServiceM α} : Frames Chat.photoIDs (service m) := by
  constructor
  intro c
  unfold wp service
  rw [run_zoom]
  cases m.run c.sh <;> trivial

theorem frames_photoIDs {f : NewTask → NewTask} (hf : ∀ t, (f t).photoIDs = t.photoIDs) :
    Frames Chat.photoIDs (modifyTask f) := ⟨.writes fun c => hf c.ud.jiraTask⟩

instance (path uuid : Text) (r : Answer Download) : Frames Chat.photoIDs (receiveFile cfg path uuid r) := by
  have hpath (outcome : Download) : Frames Chat.photoIDs (modifyTask fun t =>
      {t with vLocalFilePaths := t.vLocalFilePaths ++ [downloadImageFromUrl outcome uuid path]}) :=
    frames_photoIDs fun _ => rfl
  unfold receiveFile
  infer_instance

/-- The photo of a message. -/
theorem photo_appends :
    wp (guarded (m.photo ≠ []) do
      let filePath ← service (call (.getFile (biggestPhoto m)) penv.photoPath)
      receiveFile cfg filePath penv.photoUuid penv.photo
      modifyTask fun t => {t with photoIDs := t.photoIDs ++ biggestPhoto m ++ of "\\n"})
      (fun _ d => d.photoIDs = c.photoIDs ++ joinPhotos (appendedIds penv m))
      (fun _ d => d.photoIDs = c.photoIDs ++ joinPhotos (appendedIds penv m)) c := by
  have hnone (hids : appendedIds penv m = []) : c.photoIDs = c.photoIDs ++ joinPhotos (appendedIds penv m) := by
    rw [hids]
    exact (List.append_nil _).symm
  have hone (hids : appendedIds penv m = [biggestPhoto m]) :
      c.photoIDs ++ biggestPhoto m ++ of "\\n" = c.photoIDs ++ joinPhotos (appendedIds penv m) := by
    rw [hids, List.append_assoc]
    exact congrArg (c.photoIDs ++ ·) (List.append_nil _).symm
  simp only [wp_guarded, wp_bind, wp_service, wp_call, wp_modifyTask, receiveFile]
  refine ⟨fun hphoto => ⟨fun path hpath => ⟨fun hdownload => ⟨fun _ hr => ?_, fun _ hr => ?_⟩, fun hno => ?_⟩,
    fun _ hthrows => ?_⟩, fun hno => ?_⟩
  · refine hone ?_
    rw [appendedIds, if_neg hphoto, hpath, hr]
    exact if_pos (.inr trivial)
  · refine hnone ?_
    rw [appendedIds, if_neg hphoto, hpath, hr]
    exact if_neg fun hn => hn.elim hdownload id
  · refine hone ?_
    rw [appendedIds, if_neg hphoto, hpath]
    exact if_pos (.inl (not_not.mp hno))
  · refine hnone ?_
    rw [appendedIds, if_neg hphoto, hthrows]
  · exact hnone (if_pos (not_not.mp hno))

theorem receivePhotos_appends :
    wp (receivePhotos cfg penv m) (fun _ d => d.photoIDs = c.photoIDs ++ joinPhotos (appendedIds penv m))
      (fun _ d => d.photoIDs = c.photoIDs ++ joinPhotos (appendedIds penv m)) c := by
  have hids (fileId : Text) : Frames Chat.photoIDs (modifyTask fun t =>
      {t with vDocuIds := t.vDocuIds ++ [fileId ++ of "\n"]}) := frames_photoIDs fun _ => rfl
  have hrest {m : ChatM Unit} (hm : Frames Chat.photoIDs m) {d : Chat} {ids : Text} (hd : d.photoIDs = ids) :
      wp m (fun _ d => d.photoIDs = ids) (fun _ d => d.photoIDs = ids) d :=
    wp_mono (hm.keeps d) (fun _ _ h => h.trans hd) fun _ _ h => h.2.trans hd
  unfold receivePhotos
  rw [wp_catching, wp_bind]
  refine wp_mono photo_appends (fun _ d hd => ?_) fun stop d hd => ?_
  · cases m.document with
    | none => exact hd
    | some fileId =>
      refine wp_mono (hrest inferInstance hd) (fun _ _ h => h) fun stop _ h => ?_
      cases stop <;> exact h
  · cases stop <;> exact hd

/-- The session is still at the photo step, with these ids. -/
def AtPhotos (ids : Text) (c : Chat) : Prop := c.ud.jiraTask.stat = sharedFirstnameStep5 ∧ c.photoIDs = ids

/-- A message at the photo step adds the ids of its photos. -/
theorem smallTalk_photos {ids : Text} (h : AtPhotos ids c) :
    wp (smallTalk cfg env m) (fun _ => AtPhotos (ids ++ joinPhotos (photosSent env m)))
      (fun _ => AtPhotos (ids ++ joinPhotos (photosSent env m))) c := by
  obtain ⟨hstat, rfl⟩ := h
  have hrole : cfg.hasRole m.from_.id (roleForStep c.ud.jiraTask.stat) = true := by
    rw [hstat]
    exact isAllowed_anyone _ _
  rw [smallTalk, wp_bind, wp_get, if_pos hrole, hstat]
  show wp (sharedFirstname cfg env m) _ _ c
  unfold sharedFirstname
  by_cases htext : m.text = []
  · have hsent : photosSent env m = appendedIds env.photos m := if_pos htext
    rw [if_pos htext, wp_inThread, hsent]
    refine wp_mono (wp_and (receivePhotos_photographed env.photos) receivePhotos_appends) ?_ fun _ _ h => h.1.elim
    rintro _ d ⟨⟨-, paths, ids, docs, hud⟩, hids⟩
    exact ⟨by rw [hud]; exact hstat, hids⟩
  · have hsent : photosSent env m = [] := if_neg htext
    rw [if_neg htext, Question.ask, hsent]
    simp only [wp_bind, wp_service, wp_call, wp_modifyTask]
    exact ⟨fun _ _ => ⟨rfl, (List.append_nil _).symm⟩, fun _ _ => ⟨hstat, (List.append_nil _).symm⟩⟩

/-- The chat after these messages, each of them handled to its end or to an exception. -/
def afterMessages (cfg : Config) (c : Chat) (msgs : List (SmallTalkEnv × Message)) : Chat :=
  msgs.foldl (fun c s => final (smallTalk cfg s.1 s.2) c) c

/-- The ids these messages add. -/
def idsSent (msgs : List (SmallTalkEnv × Message)) : List Text := msgs.flatMap fun s => photosSent s.1 s.2

/-- A run of messages at the photo step. -/
theorem afterMessages_photos (msgs : List (SmallTalkEnv × Message)) {ids : Text} (h : AtPhotos ids c) :
    AtPhotos (ids ++ joinPhotos (idsSent msgs)) (afterMessages cfg c msgs) := by
  induction msgs generalizing c ids with
  | nil =>
    rw [idsSent, List.flatMap_nil]
    exact (List.append_nil ids).symm ▸ h
  | cons s msgs ih =>
    have hsent : wp (smallTalk cfg s.1 s.2) _ (fun _ => AtPhotos (ids ++ joinPhotos (photosSent s.1 s.2))) c :=
      smallTalk_photos h
    have hnext := of_wp (P := fun _ => AtPhotos (ids ++ joinPhotos (photosSent s.1 s.2))) hsent
    have hall := ih hnext
    rw [List.append_assoc, ← joinPhotos_append] at hall
    exact hall

end

/-! ### In the list -/

/-- The row of a task whose user sent these messages at the photo step, where the dialog had no photos
yet, and then a name. -/
def FiledWith (cfg : Config) (msgs : List (SmallTalkEnv × Message)) (r : IssueRow) : Prop :=
  ∃ c name, AtPhotos [] c ∧ RowOf (completed name (afterMessages cfg c msgs).ud.jiraTask) r

section
variable {cfg : Config} {msgs : List (SmallTalkEnv × Message)} {r : IssueRow}

theorem RowOf.photos {task : NewTask} (h : RowOf task r) : r.photos = task.photoIDs := by
  obtain ⟨created, htexts⟩ := h
  simp only [IssueRow.texts, List.cons.injEq] at htexts
  exact htexts.2.2.2.2.2.2.2.1

theorem FiledWith.photos (h : FiledWith cfg msgs r) : r.photos = joinPhotos (idsSent msgs) := by
  obtain ⟨c, name, hc, hrow⟩ := h
  rw [hrow.photos]
  exact (afterMessages_photos msgs hc).2

/-- The ids that went into the row come out of it. -/
theorem FiledWith.split (h : FiledWith cfg msgs r) (hids : ∀ id ∈ idsSent msgs, PhotoId id) :
    splitPhotos r.photos = idsSent msgs := by
  rw [h.photos, splitPhotos_join hids]

/-- After the photos, a name adds no other row than that of the task with these photos. -/
theorem smallTalk_filesWith {c d : Chat} {env : SmallTalkEnv} {name : Message} (hc : AtPhotos [] c)
    (hd : d.ud.jiraTask = {(afterMessages cfg c msgs).ud.jiraTask with stat := sharedSeparateTeklaFromBimStep6}) :
    wp (smallTalk cfg env name) (fun _ d' => ∀ r ∈ d'.sh.db.issues, r ∈ d.sh.db.issues ∨ FiledWith cfg msgs r)
      (fun _ d' => ∀ r ∈ d'.sh.db.issues, r ∈ d.sh.db.issues ∨ FiledWith cfg msgs r) d := by
  have hstat : d.ud.jiraTask.stat = sharedSeparateTeklaFromBimStep6 := by rw [hd]
  have hrole : cfg.hasRole name.from_.id (roleForStep d.ud.jiraTask.stat) = true := by
    rw [hstat]
    exact isAllowed_anyone _ _
  rw [smallTalk, wp_bind, wp_get, if_pos hrole, hstat]
  show wp (sharedSeparateTeklaFromBim cfg env name) _ _ d
  rw [sharedSeparateTeklaFromBim, wp_guarded, wp_bind, wp_modifyTask]
  refine ⟨fun _ => ?_, fun _ r hr => .inl hr⟩
  have hrow {r : IssueRow} (h : RowOf (completed name d.ud.jiraTask) r) : FiledWith cfg msgs r := by
    rw [hd] at h
    exact ⟨c, name, hc, h⟩
  rw [wp_inThread]
  refine wp_mono (createNewIssue_filedAs cfg env.createIssue name _) (fun _ d' h r hr => ?_) fun stop d' h => ?_
  · exact (h.rows r hr).imp_right hrow
  · cases stop <;> exact fun r hr => (h.rows r hr).imp_right hrow

theorem listed_photos (env : MyIssuesEnv) (i : Nat) (rows : List IssueRow) :
    (listed env i rows).map PgdbIssue.photos <+: rows.map fun r => splitPhotos r.photos := by
  induction rows generalizing i with
  | nil => exact List.nil_prefix
  | cons row rows ih =>
    cases hshow : env.show_ i with
    | returns sent =>
      rw [listed_sent hshow]
      exact (List.prefix_cons_inj _).mpr (ih (i + 1))
    | throws x =>
      rw [listed_failed hshow]
      exact List.nil_prefix

/-- **The photos of a list.** Each issue of the list has the ids that were sent for it, in their order, and no
others: where the messages for two rows have no id in common, their issues have none. -/
theorem photos_listed {env : MyIssuesEnv} {me : Int} {c : Chat} {msgs : IssueRow → List (SmallTalkEnv × Message)}
    (hfiled : ∀ r ∈ myRows env c.sh.db me, FiledWith cfg (msgs r) r)
    (hids : ∀ r ∈ myRows env c.sh.db me, ∀ id ∈ idsSent (msgs r), PhotoId id) :
    let own := (myRows env c.sh.db me).map fun r => idsSent (msgs r)
    let photos (u : UserDispatcher) := u.pgdbIssues.map PgdbIssue.photos
    wp (showMyIssues cfg env me)
      (fun _ c' => photos c'.ud = own ∧ (own.Pairwise List.Disjoint → (photos c'.ud).Pairwise List.Disjoint))
      (fun _ c' => c'.ud = c.ud ∨
        photos c'.ud <+: own ∧ (own.Pairwise List.Disjoint → (photos c'.ud).Pairwise List.Disjoint)) c := by
  intro own photos
  have hown : (myRows env c.sh.db me).map (fun r => splitPhotos r.photos) = own :=
    List.map_congr_left fun r hr => (hfiled r hr).split (hids r hr)
  have hbegins {u : UserDispatcher} (h : Remembers u (listed env 0 (myRows env c.sh.db me))) : photos u <+: own := by
    show u.pgdbIssues.map PgdbIssue.photos <+: own
    rw [h.pgdbIssues, ← hown]
    exact listed_photos env 0 _
  refine wp_mono showMyIssues_remembers ?_ ?_
  · rintro _ c' ⟨-, hlength, h⟩
    have hall : photos c'.ud = own := by
      refine (hbegins h).eq_of_length ?_
      show (c'.ud.pgdbIssues.map PgdbIssue.photos).length = _
      rw [h.pgdbIssues, List.length_map, hlength, ← hown, List.length_map]
    exact ⟨hall, fun hapart => hall ▸ hapart⟩
  · rintro _ c' (⟨-, hud⟩ | ⟨-, h⟩)
    · exact .inl hud
    · exact .inr ⟨hbegins h, fun hapart => hapart.sublist (hbegins h).sublist⟩

end

/-- A message with one photo. -/
def photoMessage (id : String) : SmallTalkEnv × Message :=
  ((UpdateEnv.calm 0).smallTalk, {messageId := 2, from_ := ⟨6, [], []⟩, chat := ⟨6, []⟩, photo := [of "small", of id]})

/-- A row of the contractor 3, filed with photos. -/
def photoRow (id : Int) (photos : String) : IssueRow :=
  {id, consumerName := of "Ivan", contractorId := of "3", photos := of photos}

theorem photos_listed_two :
    wp (showMyIssues {} (.from_ 100) 3)
      (fun _ c' => c'.ud.pgdbIssues.map PgdbIssue.photos = [[of "a", of "b"], [of "c"]]) (fun _ _ => True)
      ⟨newcomer3, {db := {issues := [photoRow 300 "a\\nb\\n", photoRow 301 "c\\n"]}}⟩ := by
  let msgs (r : IssueRow) := if r.id = 300 then [photoMessage "a", photoMessage "b"] else [photoMessage "c"]
  have hfiled (r : IssueRow) (hr : r ∈ [photoRow 300 "a\\nb\\n", photoRow 301 "c\\n"]) : FiledWith {} (msgs r) r := by
    refine ⟨⟨{newcomer3 with jiraTask := {stat := sharedFirstnameStep5}}, {}⟩,
      {messageId := 3, from_ := ⟨6, [], []⟩, chat := ⟨6, []⟩, text := of "Ivan"}, ⟨rfl, rfl⟩, [], ?_⟩
    rcases List.mem_pair.mp hr with rfl | rfl <;> decide +kernel
  have hids (r : IssueRow) (hr : r ∈ [photoRow 300 "a\\nb\\n", photoRow 301 "c\\n"]) :
      ∀ id ∈ idsSent (msgs r), PhotoId id := by
    rcases List.mem_pair.mp hr with rfl | rfl <;> decide +kernel
  exact wp_mono (@photos_listed _ _ _ _ msgs (fun r hr => hfiled r (List.mem_filter.mp hr).1)
    fun r hr => hids r (List.mem_filter.mp hr).1) (fun _ _ h => h.1.trans (by decide +kernel)) fun _ _ _ => trivial

end Chanserv
