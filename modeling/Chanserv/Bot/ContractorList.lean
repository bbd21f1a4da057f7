import Chanserv.Bot.Stays
import Chanserv.Program.Traces

/-! The two lists of contractors, and the table they are read from.

A reload reads the table of contractors into `vContractors`, and their ids into
`vAllowedContractors`. The first list is cleared before that, the second is not: it
holds what all reloads have read, one after another. So it follows the table up to
the first reload that reads a contractor, and not after the next. -/
namespace Chanserv
open Text Program

/-- A reload: the answer to its SELECT, and what was there before. -/
structure Reload where
  answer : Answer Bool
  before : Shared

namespace Reload

/-- The state it leaves. -/
def after (e : Reload) : Shared := final (reloadContractorsList e.answer) e.before

def table (e : Reload) : List ContractorRow := e.before.db.contractors

/-- The ids of the table, as numbers. -/
def tableIds (e : Reload) : List Int := e.table.map fun row => toLongLong row.id

/-- The ids that are read. -/
def ids (e : Reload) : List Int := if e.answer = .returns true then e.tableIds else []

/-- The list of those allowed is that of the contractors and of the table. -/
structure Follows (e : Reload) : Prop where
  contractors : e.after.vAllowedContractors = e.after.vContractors.map (·.id)
  table : e.after.vAllowedContractors = e.tableIds
  /-- Nobody is allowed who is not in the table. -/
  gone : ∀ id ∈ e.after.vAllowedContractors, ∃ row ∈ e.table, toLongLong row.id = id
  /-- Nobody is allowed twice who is in the table once. -/
  once : e.tableIds.Nodup → e.after.vAllowedContractors.Nodup

/-- All of the table is read. -/
def Complete (e : Reload) : Prop := e.answer = .returns true ∨ e.table = []

instance (e : Reload) : Decidable e.Complete := inferInstanceAs (Decidable (_ ∨ _))

/-- What a reload does to the lists. -/
theorem after_lists (e : Reload) : e.after.vContractors.map (·.id) = e.ids ∧
    e.after.vAllowedContractors = e.before.vAllowedContractors ++ e.ids := by
  obtain ⟨answer, before⟩ := e
  cases answer with
  | throws x => exact ⟨rfl, (List.append_nil _).symm⟩
  | returns ok =>
    cases ok with
    | false => exact ⟨rfl, rfl⟩
    | true => exact ⟨List.map_map, congrArg (before.vAllowedContractors ++ ·) List.map_map⟩

theorem ids_eq_tableIds_iff (e : Reload) : e.ids = e.tableIds ↔ e.Complete := by
  unfold ids Complete
  split
  case isTrue h => exact iff_of_true rfl (.inl h)
  case isFalse h => rw [or_iff_right h, eq_comm, tableIds, List.map_eq_nil_iff]

/-- It follows the table when there was nothing to keep, and all of the table is read. -/
theorem follows_iff (e : Reload) : e.Follows ↔ e.before.vAllowedContractors = [] ∧ e.Complete := by
  obtain ⟨hcontractors, hallowed⟩ := e.after_lists
  constructor
  · intro h
    have hids := h.contractors
    rw [hallowed, hcontractors, List.append_left_eq_self] at hids
    have htable := h.table
    rw [hallowed, hids, List.nil_append, ids_eq_tableIds_iff] at htable
    exact ⟨hids, htable⟩
  · rintro ⟨hbefore, hcomplete⟩
    rw [hbefore, List.nil_append] at hallowed
    have htable := hallowed.trans ((ids_eq_tableIds_iff e).mpr hcomplete)
    refine ⟨hallowed.trans hcontractors.symm, htable, fun id hid => ?_, fun h => htable ▸ h⟩
    rw [htable] at hid
    exact List.mem_map.mp hid

end Reload

/-! ### Runs -/

/-- A reload, or anything that leaves the two lists alone; the table may change in any way. -/
inductive ContractorStep : Shared → List Reload → Shared → Prop
  | reload (s : Shared) (answer : Answer Bool) :
    ContractorStep s [⟨answer, s⟩] (Reload.after ⟨answer, s⟩)
  | other {s s' : Shared} : s'.vContractors = s.vContractors →
    s'.vAllowedContractors = s.vAllowedContractors → ContractorStep s [] s'

section
variable {s₀ s : Shared} {es : List Reload}

/-- Those allowed are those of all reloads, and each reload found those of the reloads before it. -/
theorem contractorRun_allowed (h₀ : s₀.vAllowedContractors = []) (h : Runs ContractorStep s₀ es s) :
    s.vAllowedContractors = es.flatMap Reload.ids ∧
      ∀ pre e post, es = pre ++ e :: post → e.before.vAllowedContractors = pre.flatMap Reload.ids := by
  refine h.invariant (I := fun es s => s.vAllowedContractors = es.flatMap Reload.ids ∧
    ∀ pre e post, es = pre ++ e :: post → e.before.vAllowedContractors = pre.flatMap Reload.ids)
    ⟨h₀, fun pre e post hsplit => absurd hsplit (by simp)⟩ ?_
  rintro es s es' s' ⟨hallowed, hreloads⟩ hstep
  cases hstep with
  | reload answer =>
    refine ⟨?_, forall_split_concat.mpr ⟨hreloads, hallowed⟩⟩
    rw [(Reload.after_lists ⟨answer, s⟩).2, hallowed, List.flatMap_append, List.flatMap_singleton]
  | other _ hsame =>
    rw [List.append_nil]
    exact ⟨hsame.trans hallowed, hreloads⟩

/-- In every run the list follows the table at the reloads before which none has read a contractor,
if all of the table is read, and at no others. -/
theorem contractor_reloads_follow_iff (h₀ : s₀.vAllowedContractors = []) (h : Runs ContractorStep s₀ es s)
    (pre : List Reload) (e : Reload) (post : List Reload) (hsplit : es = pre ++ e :: post) :
    e.Follows ↔ (∀ earlier ∈ pre, earlier.ids = []) ∧ e.Complete := by
  rw [e.follows_iff, (contractorRun_allowed h₀ h).2 pre e post hsplit, List.flatMap_eq_nil_iff]

end

/-- The first reload finds no contractor; then there are two, and the next reload reads them. -/
theorem contractor_first_reload_follows : ∃ (first second : Reload) (s : Shared),
    Runs ContractorStep {} [first, second] s ∧ first.tableIds = [] ∧ second.tableIds = [3, 4] ∧ second.Follows := by
  let first : Reload := ⟨.returns true, {}⟩
  let second : Reload :=
    ⟨.returns true, {first.after with db := {contractors := [⟨of "3", [], [], [], []⟩, ⟨of "4", [], [], [], []⟩]}}⟩
  have hfirst : Runs ContractorStep {} [first] first.after := Runs.start.step (.reload {} (.returns true))
  have htwo : ContractorStep first.after [] second.before := .other rfl rfl
  have hsecond : Runs ContractorStep {} [first, second] second.after := (hfirst.step htwo).step (.reload _ _)
  have hempty : ∀ earlier ∈ [first], earlier.ids = [] := by decide +kernel
  have hfollows := (contractor_reloads_follow_iff rfl hsecond [first] second [] rfl).mpr ⟨hempty, .inl rfl⟩
  exact ⟨first, second, _, hsecond, by decide +kernel, by decide +kernel, hfollows⟩

/-- Contractor 3 leaves the table and 4 comes: the next reload allows both. -/
theorem contractor_removed_stays_allowed : ∃ (first second : Reload) (s : Shared),
    Runs ContractorStep {} [first, second] s ∧ first.tableIds = [3] ∧ second.tableIds = [4] ∧
      second.after.vAllowedContractors = [3, 4] ∧ ¬second.Follows := by
  let table (id : Text) (s : Shared) : Shared := {s with db := {contractors := [⟨id, [], [], [], []⟩]}}
  let first : Reload := ⟨.returns true, table (of "3") {}⟩
  let second : Reload := ⟨.returns true, table (of "4") first.after⟩
  have hthree : ContractorStep {} [] first.before := .other rfl rfl
  have hfour : ContractorStep first.after [] second.before := .other rfl rfl
  have hfirst : Runs ContractorStep {} [first] first.after := (Runs.start.step hthree).step (.reload _ _)
  have hsecond : Runs ContractorStep {} [first, second] second.after := (hfirst.step hfour).step (.reload _ _)
  have hallowed : second.after.vAllowedContractors = [3, 4] := by decide +kernel
  have htable : second.tableIds = [4] := by decide +kernel
  refine ⟨first, second, _, hsecond, by decide +kernel, htable, hallowed, fun h => ?_⟩
  have hsame := h.table
  rw [hallowed, htable] at hsame
  exact absurd hsame (by decide)

/-! ### The step of the bot that reloads -/

/-- What all parts share has come from one state to the other by such steps. -/
def Reloads (s s' : Shared) : Prop := ∃ es, Runs ContractorStep s es s'

instance : Std.Refl Reloads := ⟨fun _ => ⟨[], .start⟩⟩

instance : IsTrans Shared Reloads := ⟨fun _ _ _ ⟨_, h⟩ ⟨_, h'⟩ => ⟨_, h.append h'⟩⟩

theorem Reloads.other {s s' : Shared} (hcontractors : s'.vContractors = s.vContractors)
    (hallowed : s'.vAllowedContractors = s.vAllowedContractors) : Reloads s s' :=
  ⟨_, Runs.start.step (.other hcontractors hallowed)⟩

section
variable {α : Type}

instance (e : Effect) (r : Answer α) : Stays Reloads (call e r) where
  within s := by
    rw [wp_call]
    exact ⟨fun _ _ => .other rfl rfl, fun _ _ => .other rfl rfl⟩

instance (e : Effect) (r : Answer Bool) (f : Db → Db) : Stays Reloads (sql e r f) where
  within s := by
    rw [wp_sql]
    exact ⟨fun _ => .other rfl rfl, fun _ => .other rfl rfl, fun _ _ => .other rfl rfl⟩

instance (r : Answer Bool) : Stays Reloads (reloadContractorsList r) where
  within s := by
    have hreload : Reloads s (Reload.after ⟨r, s⟩) := ⟨_, Runs.start.step (.reload s r)⟩
    unfold Reload.after final at hreload
    unfold wp
    cases hrun : (reloadContractorsList r).run s <;> rwa [hrun] at hreload

/-- Adding a contractor does nothing else to the lists. -/
theorem staffAddContractor_reloads (env : SmallTalkEnv) (m : Message) (c : Chat) :
    Reloads c.sh (final (staffAddContractor env m) c).sh := by
  have hstays : Stays (SameLists Reloads) (staffAddContractor env m) := by
    unfold staffAddContractor
    dsimp only
    split <;> infer_instance
  refine of_wp (P := fun _ (c' : Chat) => Reloads c.sh c'.sh) ?_
  exact wp_mono (hstays.within c) (fun _ _ h => h.2) fun _ _ h => h.2

end

end Chanserv
