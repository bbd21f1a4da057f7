import Chanserv.Bot.MainLoop

/-! Which issue a webhook is about.

A webhook is to call `/UPD/` and the key of an issue. The handler looks for `UPD`
behind the first byte of the path, whatever that is and whatever follows, and takes
for the key what stands behind the last slash: it is right where the two agree. -/
namespace Chanserv
open Text Program

/-- The key of an issue Jira is asked about. -/
def Effect.issueKey? : Effect → Option Text
  | .getTaskInfo key => some key
  | _ => none

/-- The path of a webhook about an issue. -/
def IsUpdateOf (path key : Text) : Prop := path = of "/UPD/" ++ key ∧ key ≠ [] ∧ '/' ∉ key

/-- The keys a handler asks about while Telegram and curl answer, and whether it completes. -/
def Asks (cfg : Config) (path : Text) (keys : List Text) : Prop :=
  ∀ env s, env.notice.Normal → env.taskInfo.issue.Normal →
    wp (jiraWebhooksHandler cfg env path)
      (fun _ s' => s'.trace.filterMap Effect.issueKey? = s.trace.filterMap Effect.issueKey? ++ keys)
      (fun _ _ => False) s

/-- What webhooks are to do: the issue of the path is asked about, and no other; on a path that names
none, nothing is asked, and none makes the handler throw. -/
structure Conforms (cfg : Config) (path : Text) : Prop where
  update : ∀ key, IsUpdateOf path key → Asks cfg path [key]
  other : (∀ key, ¬ IsUpdateOf path key) → Asks cfg path []

/-! ### What is asked -/

section
variable {cfg : Config} {path key : Text}

theorem asked_log (s : Shared) (e : Effect) : (s.log e).trace.filterMap Effect.issueKey? =
    s.trace.filterMap Effect.issueKey? ++ e.issueKey?.toList := Shared.filterMap_log _ _ _

theorem getTaskInfo_asks {env : TaskInfoEnv} (h : env.issue.Normal) (s : Shared) :
    wp (getTaskInfo cfg key env)
      (fun _ s' => s'.trace.filterMap Effect.issueKey? = s.trace.filterMap Effect.issueKey? ++ [key])
      (fun _ _ => False) s := by
  have hasked := asked_log s (.getTaskInfo key)
  rw [getTaskInfo, wp_bind, wp_call]
  refine ⟨fun reply _ => ?_, fun x hx => h.not_throws hx⟩
  cases reply with
  | noHandle | failed => exact hasked
  | answered status body =>
    dsimp only
    rw [wp_ite]
    refine ⟨fun _ => hasked, fun _ => ?_⟩
    cases body with
    | none => exact hasked
    | some v =>
      simp only [wp_bind, wp_get, wp_modify, wp_guarded, wp_catching, wp_call, wp_pure]
      -- a mail, and the SELECT before it, ask nothing
      have hmail {s' : Shared} {e : Effect} (he : e.issueKey? = none)
          (hs' : s'.trace.filterMap Effect.issueKey? = s.trace.filterMap Effect.issueKey? ++ [key]) :
          (s'.log e).trace.filterMap Effect.issueKey? = s.trace.filterMap Effect.issueKey? ++ [key] := by
        rw [asked_log, he, hs']
        exact List.append_nil _
      have hselect := hmail (e := .selectRows) rfl hasked
      exact ⟨fun _ => ⟨fun _ _ => ⟨fun _ _ => hmail rfl hselect, fun _ _ => hmail rfl hselect⟩, fun _ _ => hselect⟩,
        fun _ => hasked⟩

/-- On a path with a byte, the key behind the last slash is asked about, or nothing. -/
theorem jiraWebhooksHandler_asks (h : path ≠ []) :
    Asks cfg path (if isUpdate path then [afterLast '/' path] else []) := by
  intro env s hnotice hissue
  rw [jiraWebhooksHandler, wp_bind, wp_call]
  refine ⟨fun _ _ => ?_, fun x hx => hnotice.not_throws hx⟩
  have htold := asked_log s (.sendMessage (.named cfg.supportTgId) (of "JIRA: " ++ path))
  rw [show Effect.issueKey? _ = none from rfl, Option.toList_none, List.append_nil] at htold
  rw [if_neg h]
  by_cases hupdate : isUpdate path
  · rw [if_pos hupdate]
    refine wp_guarded_of hupdate ?_
    rw [wp_bind]
    refine wp_mono (getTaskInfo_asks hissue _) (fun _ s' hs' => ?_) fun _ _ => id
    rw [wp_pure, hs', htold]
  · rw [if_neg hupdate]
    refine wp_guarded_of_not hupdate ?_
    rw [htold, List.append_nil]

/-- Telegram answers, and curl has no handle. -/
def answering : TaskEnv :=
  { notice := .returns ⟨1, 1⟩
    taskInfo := ⟨.returns .noHandle, .returns true, .returns ()⟩
    memSize := .returns none
    uptime := 0
    listcheckerPid := 1 }

theorem Asks.unique {keys keys' : List Text} (h : Asks cfg path keys) (h' : Asks cfg path keys') : keys = keys' := by
  have hboth := wp_and (h answering {} trivial trivial) (h' answering {} trivial trivial)
  have hends := of_wp (P := fun _ _ => keys = keys')
    (wp_mono hboth (fun _ _ hs => List.append_cancel_left (hs.1.symm.trans hs.2)) fun _ _ hs => hs.1.elim)
  exact hends

theorem not_asks_nil {keys : List Text} : ¬ Asks cfg [] keys := by
  intro h
  have hthrows := h answering {} trivial trivial
  rw [jiraWebhooksHandler, wp_bind, wp_call] at hthrows
  have hnone := hthrows.1 ⟨1, 1⟩ rfl
  rw [if_pos rfl] at hnone
  exact hnone

/-! ### Which paths conform -/

theorem isUpdate_of_key (h : IsUpdateOf path key) : isUpdate path = true := by
  obtain ⟨rfl, -⟩ := h
  rfl

theorem afterLast_of_key (h : IsUpdateOf path key) : afterLast '/' path = key := by
  obtain ⟨rfl, -, hslash⟩ := h
  have hkey : ∀ c ∈ key.reverse, decide (c ≠ '/') = true := by
    intro c hc
    rw [decide_eq_true_eq]
    rintro rfl
    exact hslash (List.mem_reverse.mp hc)
  rw [afterLast, List.reverse_append, List.takeWhile_append_of_pos hkey]
  show (key.reverse ++ []).reverse = key
  rw [List.append_nil, List.reverse_reverse]

/-- **A path conforms unless it is empty, or has `UPD` behind its first byte without naming an issue.** -/
theorem conforms_iff (cfg : Config) (path : Text) :
    Conforms cfg path ↔ path ≠ [] ∧ (isUpdate path = true → ∃ key, IsUpdateOf path key) := by
  constructor
  · intro h
    have hpath : path ≠ [] := by
      rintro rfl
      refine not_asks_nil (h.other ?_)
      rintro key ⟨hkey, -⟩
      cases hkey
    refine ⟨hpath, fun hupdate => ?_⟩
    by_contra hnone
    have hnothing := (h.other (not_exists.mp hnone)).unique (jiraWebhooksHandler_asks hpath)
    rw [if_pos hupdate] at hnothing
    cases hnothing
  · rintro ⟨hpath, hupdate⟩
    have hasks : Asks cfg path _ := jiraWebhooksHandler_asks hpath
    constructor
    · intro key hkey
      rw [if_pos (isUpdate_of_key hkey), afterLast_of_key hkey] at hasks
      exact hasks
    · intro hnone
      rw [if_neg fun hu => (hupdate hu).elim hnone] at hasks
      exact hasks

/-- A longer first segment, and a key that is none: Jira is asked about `A-1`. -/
theorem longer_segment_accepted : Asks {} (of "/UPDATE/A-1") [of "A-1"] ∧ ¬ Conforms {} (of "/UPDATE/A-1") := by
  refine ⟨jiraWebhooksHandler_asks (by decide), fun h => ?_⟩
  obtain ⟨key, hkey, -⟩ := ((conforms_iff _ _).mp h).2 (by decide)
  cases hkey

end

end Chanserv
