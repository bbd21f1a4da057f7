import Chanserv.Program.Traces
import Mathlib.Data.List.Induction

/-! Things that live while they are used.

A thing is opened under a key, using it renews it, and a sweep removes what was
last used too long ago. Whether there is a thing under a key can be told from the
history: it was opened at some time and outlived every sweep since. -/
namespace Chanserv.Program

/-- What is done: a thing is looked up, opened if it is not there, or all are swept. -/
inductive Use (κ τ : Type)
  | used (key : κ) (time : τ)
  | opened (key : κ) (time : τ)
  | swept (now ttl : τ)

section
variable {κ τ : Type} [DecidableEq κ] [Sub τ] [LE τ] [DecidableLE τ]

/-- When the thing under a key was last used; none while there is no such thing. -/
def Use.next (key : κ) (last : Option τ) : Use κ τ → Option τ
  | used k t => if k = key then last.map fun _ => t else last
  | opened k t => if k = key then some t else last
  | swept now ttl => last.filter fun t => now - t ≤ ttl

def lastUse (key : κ) (uses : List (Use κ τ)) : Option τ := uses.foldl (Use.next key) none

/-- The time given for a key, whether there is such a thing or not. -/
def Use.timeOr (key : κ) (t : τ) : Use κ τ → τ
  | used k t' | opened k t' => if k = key then t' else t
  | swept _ _ => t

/-- The last time given for a key. -/
def lastTime (key : κ) (t : τ) (uses : List (Use κ τ)) : τ := uses.foldl (Use.timeOr key) t

/-- No sweep finds the time last given for the key too long ago. -/
def Kept (key : κ) (t : τ) (uses : List (Use κ τ)) : Prop :=
  ∀ before now ttl after, uses = before ++ .swept now ttl :: after → now - lastTime key t before ≤ ttl

variable {key : κ} {t last : τ} {uses : List (Use κ τ)} {u : Use κ τ}

theorem lastUse_concat : lastUse key (uses ++ [u]) = u.next key (lastUse key uses) := by
  rw [lastUse, List.foldl_append]
  rfl

omit [Sub τ] [LE τ] [DecidableLE τ] in
theorem lastTime_concat : lastTime key t (uses ++ [u]) = u.timeOr key (lastTime key t uses) := by
  rw [lastTime, List.foldl_append]
  rfl

omit [DecidableLE τ] in
theorem kept_nil : Kept key t [] := by
  intro before now ttl after h
  exact absurd h.symm (List.append_ne_nil_of_right_ne_nil _ (List.cons_ne_nil _ _))

omit [DecidableLE τ] in
theorem kept_concat :
    Kept key t (uses ++ [u]) ↔
      Kept key t uses ∧ ∀ now ttl, u = .swept now ttl → now - lastTime key t uses ≤ ttl := by
  have hsplit := @forall_split_concat _
    (fun before x => ∀ now ttl, x = .swept now ttl → now - lastTime key t before ≤ ttl) uses u
  constructor
  · intro h
    obtain ⟨hkept, hlast⟩ := hsplit.mp fun before x after hu now ttl hx => h before now ttl after (hx ▸ hu)
    exact ⟨fun before now ttl after hu => hkept before _ after hu now ttl rfl, hlast⟩
  · rintro ⟨hkept, hlast⟩ before now ttl after hu
    exact hsplit.mpr ⟨fun before x after hu now ttl hx => hkept before now ttl after (hx ▸ hu), hlast⟩
      before _ after hu now ttl rfl

/-- A thing that is kept was last used at the last time given. -/
theorem foldl_next_of_kept (h : Kept key t uses) :
    uses.foldl (Use.next key) (some t) = some (lastTime key t uses) := by
  induction uses using List.reverseRecOn with
  | nil => rfl
  | append_singleton uses u ih =>
    obtain ⟨hkept, hlast⟩ := kept_concat.mp h
    rw [List.foldl_append, ih hkept, lastTime_concat]
    cases u with
    | used k t' =>
      show (if k = key then _ else _) = _
      rw [Use.timeOr]
      split <;> rfl
    | opened k t' =>
      show (if k = key then _ else _) = _
      rw [Use.timeOr]
      split <;> rfl
    | swept now ttl =>
      have hlives : now - lastTime key t uses ≤ ttl := hlast now ttl rfl
      show (some (lastTime key t uses)).filter (fun t => now - t ≤ ttl) = some (lastTime key t uses)
      rw [Option.filter_some, decide_eq_true hlives]
      rfl

/-- There is a thing under a key when it was opened and kept since. -/
theorem lastUse_eq_some_iff :
    lastUse key uses = some last ↔
      ∃ before t after, uses = before ++ .opened key t :: after ∧ Kept key t after ∧ lastTime key t after = last := by
  constructor
  · intro h
    induction uses using List.reverseRecOn generalizing last with
    | nil => cases h
    | append_singleton uses u ih =>
      rw [lastUse_concat] at h
      have hmore {t' : τ} (hold : lastUse key uses = some t') (hu : ∀ now ttl, u = .swept now ttl → now - t' ≤ ttl)
          (hlast : u.timeOr key t' = last) :
          ∃ before t after, uses ++ [u] = before ++ .opened key t :: after ∧ Kept key t after ∧
            lastTime key t after = last := by
        obtain ⟨before, t, after, rfl, hkept, rfl⟩ := ih hold
        refine ⟨before, t, after ++ [u], ?_, kept_concat.mpr ⟨hkept, hu⟩, lastTime_concat.trans hlast⟩
        rw [List.append_assoc, List.cons_append]
      cases u with
      | used k t' =>
        change (if k = key then _ else _) = _ at h
        cases hold : lastUse key uses with
        | none =>
          rw [hold] at h
          split at h <;> cases h
        | some t₀ =>
          refine hmore hold (fun _ _ hu => by cases hu) ?_
          rw [hold] at h
          rw [Use.timeOr]
          split at h
          case isTrue hk =>
            rw [if_pos hk]
            exact Option.some.inj h
          case isFalse hk =>
            rw [if_neg hk]
            exact Option.some.inj h
      | opened k t' =>
        change (if k = key then _ else _) = _ at h
        by_cases hk : k = key
        · rw [if_pos hk, Option.some.injEq] at h
          subst hk h
          exact ⟨uses, t', [], rfl, kept_nil, rfl⟩
        · rw [if_neg hk] at h
          exact hmore h (fun _ _ hu => by cases hu) (if_neg hk)
      | swept now ttl =>
        obtain ⟨hold, hlives⟩ := Option.filter_eq_some_iff.mp h
        refine hmore hold ?_ rfl
        rintro _ _ ⟨rfl, rfl⟩
        exact of_decide_eq_true hlives
  · rintro ⟨before, t, after, rfl, hkept, rfl⟩
    have hopened : lastUse key (before ++ [.opened key t]) = some t := by
      rw [lastUse_concat]
      exact if_pos rfl
    rw [List.append_cons, lastUse, List.foldl_append]
    exact (congrArg (after.foldl (Use.next key)) hopened).trans (foldl_next_of_kept hkept)

end

end Chanserv.Program
