import Chanserv.Program.Traces
import Mathlib.Data.List.Induction
import Mathlib.Logic.Function.Basic

/-! Caches that downloads fill.

A request is answered from the cache, unless there is no entry or a fresh one is
demanded: then a download replaces the entry, and a download that fails leaves none.
So an entry is what the last download for its key brought (`Cache.after_eq`), and an
entry nobody demands anew stays. -/
namespace Chanserv.Program

variable {κ ν ε : Type} [DecidableEq κ]

abbrev Cache (κ ν : Type) := κ → Option ν

/-- A request, and what a download for it would bring. -/
structure Fetch (κ ν ε : Type) where
  key : κ
  force : Bool
  download : Except ε ν

variable {c : Cache κ ν} {f : Fetch κ ν ε} {k : κ} {fs : List (Fetch κ ν ε)}

/-- The request is not answered from the cache. -/
def Fetch.Downloads (f : Fetch κ ν ε) (c : Cache κ ν) : Prop := f.force ∨ c f.key = none

instance (f : Fetch κ ν ε) (c : Cache κ ν) : Decidable (f.Downloads c) :=
  inferInstanceAs (Decidable (f.force = true ∨ c f.key = none))

namespace Cache

def fetch (c : Cache κ ν) (f : Fetch κ ν ε) : Cache κ ν :=
  if f.Downloads c then Function.update c f.key f.download.toOption else c

/-- The key, once its entry can be read. -/
def answer (c : Cache κ ν) (f : Fetch κ ν ε) : Except ε κ :=
  if f.Downloads c then f.download.map fun _ => f.key else .ok f.key

def after (c : Cache κ ν) (fs : List (Fetch κ ν ε)) : Cache κ ν := fs.foldl fetch c

theorem fetch_hit (h : ¬f.Downloads c) : c.fetch f = c := if_neg h

theorem fetch_miss (h : f.Downloads c) : c.fetch f = Function.update c f.key f.download.toOption := if_pos h

omit [DecidableEq κ] in
theorem answer_hit (h : ¬f.Downloads c) : c.answer f = .ok f.key := if_neg h

omit [DecidableEq κ] in
theorem answer_miss (h : f.Downloads c) : c.answer f = f.download.map fun _ => f.key := if_pos h

theorem fetch_ne (h : k ≠ f.key) : c.fetch f k = c k := by
  rw [fetch]
  split
  · exact Function.update_of_ne h _ c
  · rfl

theorem fetch_downloads (h : f.Downloads c) : c.fetch f f.key = f.download.toOption := by
  rw [fetch_miss h, Function.update_self]

/-- An answer is a key that has an entry. -/
theorem answer_eq_ok_iff : c.answer f = .ok k ↔ k = f.key ∧ (c.fetch f k).isSome := by
  rw [answer]
  split
  case isTrue h =>
    cases hd : f.download with
    | error e =>
      constructor
      · intro hk
        cases hk
      · rintro ⟨rfl, hsome⟩
        rw [fetch_downloads h, hd] at hsome
        cases hsome
    | ok v =>
      constructor
      · intro hk
        cases hk
        refine ⟨rfl, ?_⟩
        rw [fetch_downloads h, hd]
        rfl
      · rintro ⟨rfl, -⟩
        rfl
  case isFalse h =>
    have hsome : (c f.key).isSome := Option.isSome_iff_ne_none.mpr fun hnone => h (.inr hnone)
    rw [fetch_hit h]
    constructor
    · intro hk
      cases hk
      exact ⟨rfl, hsome⟩
    · rintro ⟨rfl, -⟩
      rfl

theorem after_append (c : Cache κ ν) (fs fs' : List (Fetch κ ν ε)) : c.after (fs ++ fs') = (c.after fs).after fs' :=
  List.foldl_append ..

theorem after_concat (c : Cache κ ν) (fs : List (Fetch κ ν ε)) (f : Fetch κ ν ε) :
    c.after (fs ++ [f]) = (c.after fs).fetch f :=
  after_append c fs [f]

/-- No request of these downloads for the key. -/
def Quiet (c : Cache κ ν) (k : κ) (fs : List (Fetch κ ν ε)) : Prop :=
  ∀ pre f post, fs = pre ++ f :: post → f.key = k → ¬f.Downloads (c.after pre)

theorem quiet_nil : c.Quiet k ([] : List (Fetch κ ν ε)) := by
  intro pre f post h
  exact absurd h.symm (List.append_ne_nil_of_right_ne_nil pre (List.cons_ne_nil f post))

theorem quiet_concat : c.Quiet k (fs ++ [f]) ↔ c.Quiet k fs ∧ (f.key = k → ¬f.Downloads (c.after fs)) :=
  forall_split_concat (P := fun pre (f : Fetch κ ν ε) => f.key = k → ¬f.Downloads (c.after pre))

/-- Other keys, and hits, leave the entry. -/
theorem fetch_quiet (h : f.key = k → ¬f.Downloads c) : c.fetch f k = c k := by
  by_cases hk : f.key = k
  · rw [fetch_hit (h hk)]
  · exact fetch_ne (Ne.symm hk)

theorem after_quiet (h : c.Quiet k fs) : c.after fs k = c k := by
  induction fs using List.reverseRecOn with
  | nil => rfl
  | append_singleton fs f ih =>
    obtain ⟨hbefore, hlast⟩ := quiet_concat.mp h
    rw [after_concat, fetch_quiet hlast, ih hbefore]

/-- What is there stays until it is demanded anew. -/
theorem quiet_of_unforced (hk : c k ≠ none) (h : ∀ f ∈ fs, f.key = k → f.force = false) : c.Quiet k fs := by
  induction fs using List.reverseRecOn with
  | nil => exact quiet_nil
  | append_singleton fs f ih =>
    have hbefore := ih fun f hf => h f (List.mem_append_left _ hf)
    refine quiet_concat.mpr ⟨hbefore, ?_⟩
    rintro rfl (hforce | hnone)
    · have hunforced := h f (List.mem_append_right _ (List.mem_singleton_self f)) rfl
      rw [hunforced] at hforce
      cases hforce
    · rw [after_quiet hbefore] at hnone
      exact hk hnone

/-- An entry is what the last download for its key brought, or that from the start. -/
theorem after_eq (c : Cache κ ν) (k : κ) (fs : List (Fetch κ ν ε)) :
    (c.Quiet k fs ∧ c.after fs k = c k) ∨
      ∃ pre f post, fs = pre ++ f :: post ∧ f.key = k ∧ f.Downloads (c.after pre) ∧
        (c.after (pre ++ [f])).Quiet k post ∧ c.after fs k = f.download.toOption := by
  induction fs using List.reverseRecOn with
  | nil => exact .inl ⟨quiet_nil, rfl⟩
  | append_singleton fs f ih =>
    by_cases hlast : f.key = k ∧ f.Downloads (c.after fs)
    case pos =>
      obtain ⟨rfl, hdownloads⟩ := hlast
      refine .inr ⟨fs, f, [], rfl, rfl, hdownloads, quiet_nil, ?_⟩
      rw [after_concat, fetch_downloads hdownloads]
    case neg =>
      have hquiet : f.key = k → ¬f.Downloads (c.after fs) := fun hk hd => hlast ⟨hk, hd⟩
      rw [after_concat, fetch_quiet hquiet]
      rcases ih with ⟨hbefore, hsame⟩ | ⟨pre, g, post, rfl, hk, hdownloads, hpost, hvalue⟩
      · exact .inl ⟨quiet_concat.mpr ⟨hbefore, hquiet⟩, hsame⟩
      · refine .inr ⟨pre, g, post ++ [f], by simp, hk, hdownloads, quiet_concat.mpr ⟨hpost, ?_⟩, hvalue⟩
        rw [List.append_cons, after_append] at hquiet
        exact hquiet

end Cache

end Chanserv.Program
