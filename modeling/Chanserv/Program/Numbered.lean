import Mathlib.Algebra.Order.Ring.Int
import Mathlib.Data.List.Nodup
import Mathlib.Logic.Relation

/-! Tables that number their rows.

A row gets the next number when it is written. It may be rewritten, but for its
number and for what is fixed about it, and it may be deleted. Whatever the order
of such steps, the rows stand in the order of their numbers, a number is that of
one row for ever, and a row that has been deleted does not come back. -/
namespace Chanserv.Program

structure Numbered (ρ : Type) where
  rows : List ρ
  /-- The number the next row gets. -/
  next : Int

namespace Numbered

variable {ρ φ : Type} (number : ρ → Int) (fixed : ρ → φ)

/-- One step: rows written at the end are of a kind, rewriting goes by certain functions. A number may
be left out. -/
inductive Step (filed : ρ → Prop) (edit : (ρ → ρ) → Prop) : Numbered ρ → Numbered ρ → Prop
  | file {t : Numbered ρ} {r : ρ} (h : filed r) (hr : number r = t.next) :
      Step filed edit t ⟨t.rows ++ [r], t.next + 1⟩
  | skip {t : Numbered ρ} {n : Int} (h : t.next ≤ n) : Step filed edit t ⟨t.rows, n⟩
  | edits {t : Numbered ρ} {f : ρ → ρ} (h : edit f) : Step filed edit t ⟨t.rows.map f, t.next⟩
  | deletes {t : Numbered ρ} (p : ρ → Bool) : Step filed edit t ⟨t.rows.filter p, t.next⟩

/-- Any number of steps. -/
def Leads (filed : ρ → Prop) (edit : (ρ → ρ) → Prop) : Numbered ρ → Numbered ρ → Prop :=
  Relation.ReflTransGen (Step number filed edit)

/-- The rows are in the order of their numbers, and the next one comes after them. -/
structure InOrder (t : Numbered ρ) : Prop where
  increasing : t.rows.Pairwise fun r s => number r < number s
  below : ∀ r ∈ t.rows, number r < t.next

/-- What is still true of a table however much later: a row is one there was, in what is fixed, or its
number had not been given yet. -/
structure Later (t t' : Numbered ρ) : Prop where
  next : t.next ≤ t'.next
  rows : ∀ r' ∈ t'.rows, (∃ r ∈ t.rows, number r' = number r ∧ fixed r' = fixed r) ∨ t.next ≤ number r'

variable {number fixed}
variable {filed : ρ → Prop} {edit : (ρ → ρ) → Prop} {t t' t'' : Numbered ρ}

/-! ### The order -/

theorem InOrder.file {r : ρ} (h : InOrder number t) (hr : number r = t.next) :
    InOrder number ⟨t.rows ++ [r], t.next + 1⟩ := by
  constructor
  · rw [List.pairwise_append]
    refine ⟨h.increasing, List.pairwise_singleton _ _, fun s hs r' hr' => ?_⟩
    rw [List.mem_singleton.mp hr', hr]
    exact h.below s hs
  · intro s hs
    show number s < t.next + 1
    rcases List.mem_append.mp hs with hs | hs
    · have hbelow := h.below s hs
      omega
    · rw [List.mem_singleton.mp hs, hr]
      omega

theorem InOrder.edits {f : ρ → ρ} (h : InOrder number t) (hf : ∀ r, number (f r) = number r) :
    InOrder number ⟨t.rows.map f, t.next⟩ := by
  constructor
  · rw [List.pairwise_map]
    exact h.increasing.imp fun {r s} hrs => by rw [hf, hf]; exact hrs
  · intro s hs
    obtain ⟨r, hr, rfl⟩ := List.mem_map.mp hs
    show number (f r) < t.next
    rw [hf]
    exact h.below r hr

theorem InOrder.step (hedit : ∀ f, edit f → ∀ r, number (f r) = number r) (h : InOrder number t)
    (hs : Step number filed edit t t') : InOrder number t' := by
  cases hs with
  | file _ hr => exact h.file hr
  | skip hn => exact ⟨h.increasing, fun r hr => lt_of_lt_of_le (h.below r hr) hn⟩
  | edits hf => exact h.edits (hedit _ hf)
  | deletes p => exact ⟨h.increasing.filter p, fun r hr => h.below r (List.mem_filter.mp hr).1⟩

theorem Leads.mono {filed' : ρ → Prop} {edit' : (ρ → ρ) → Prop} (hfiled : ∀ r, filed r → filed' r)
    (hedit : ∀ f, edit f → edit' f) (hl : Leads number filed edit t t') : Leads number filed' edit' t t' := by
  induction hl with
  | refl => exact .refl
  | tail _ hs ih =>
    apply ih.tail
    cases hs with
    | file h hr => exact .file (hfiled _ h) hr
    | skip hn => exact .skip hn
    | edits hf => exact .edits (hedit _ hf)
    | deletes p => exact .deletes p

theorem Leads.inOrder (hedit : ∀ f, edit f → ∀ r, number (f r) = number r) (hl : Leads number filed edit t t')
    (h : InOrder number t) : InOrder number t' := by
  induction hl with
  | refl => exact h
  | tail _ hs ih => exact ih.step hedit hs

theorem Leads.next_le (hl : Leads number filed edit t t') : t.next ≤ t'.next := by
  induction hl with
  | refl => exact le_refl _
  | tail _ hs ih =>
    cases hs with
    | file _ _ => exact ih.trans (lt_add_one _).le
    | skip hn => exact ih.trans hn
    | edits _ => exact ih
    | deletes _ => exact ih

/-- Where nothing is rewritten, a row was there or is new, of the kind that is written. -/
theorem Leads.unedited (hedit : ∀ f, ¬edit f) (hl : Leads number filed edit t t') :
    ∀ r ∈ t'.rows, r ∈ t.rows ∨ filed r ∧ t.next ≤ number r := by
  induction hl with
  | refl => exact fun _ hr => .inl hr
  | tail hl hs ih =>
    intro r hr
    cases hs with
    | file h hnumber =>
      rcases List.mem_append.mp hr with hr | hr
      · exact ih r hr
      · rw [List.mem_singleton.mp hr, hnumber]
        exact .inr ⟨h, Leads.next_le hl⟩
    | skip _ => exact ih r hr
    | edits hf => exact (hedit _ hf).elim
    | deletes p => exact ih r (List.mem_filter.mp hr).1

/-- A number is that of one row. -/
theorem InOrder.eq_of_number (h : InOrder number t) {r s : ρ} (hr : r ∈ t.rows) (hs : s ∈ t.rows)
    (hsame : number r = number s) : r = s := by
  have hdistinct : (t.rows.map number).Nodup := List.pairwise_map.mpr (h.increasing.imp ne_of_lt)
  exact List.inj_on_of_nodup_map hdistinct hr hs hsame

/-! ### Later -/

theorem Later.refl (t : Numbered ρ) : Later number fixed t t :=
  ⟨le_refl _, fun r hr => .inl ⟨r, hr, rfl, rfl⟩⟩

theorem Later.trans (h : Later number fixed t t') (h' : Later number fixed t' t'') :
    Later number fixed t t'' := by
  refine ⟨h.next.trans h'.next, fun r'' hr'' => ?_⟩
  rcases h'.rows r'' hr'' with ⟨r', hr', hnumber', hfixed'⟩ | hnew
  · rcases h.rows r' hr' with ⟨r, hr, hnumber, hfixed⟩ | hnew
    · exact .inl ⟨r, hr, hnumber'.trans hnumber, hfixed'.trans hfixed⟩
    · exact .inr (hnumber' ▸ hnew)
  · exact .inr (h.next.trans hnew)

theorem Later.step (hedit : ∀ f, edit f → ∀ r, number (f r) = number r ∧ fixed (f r) = fixed r)
    (hs : Step number filed edit t t') : Later number fixed t t' := by
  cases hs with
  | @file r _ hr =>
    refine ⟨(lt_add_one t.next).le, fun s hs => ?_⟩
    rcases List.mem_append.mp hs with hs | hs
    · exact .inl ⟨s, hs, rfl, rfl⟩
    · rw [List.mem_singleton.mp hs, hr]
      exact .inr (le_refl _)
  | skip hn => exact ⟨hn, fun r hr => .inl ⟨r, hr, rfl, rfl⟩⟩
  | edits hf =>
    refine ⟨le_refl _, fun s hs => ?_⟩
    obtain ⟨r, hr, rfl⟩ := List.mem_map.mp hs
    obtain ⟨hnumber, hfixed⟩ := hedit _ hf r
    exact .inl ⟨r, hr, hnumber, hfixed⟩
  | deletes p => exact ⟨le_refl _, fun r hr => .inl ⟨r, (List.mem_filter.mp hr).1, rfl, rfl⟩⟩

theorem Leads.later (hedit : ∀ f, edit f → ∀ r, number (f r) = number r ∧ fixed (f r) = fixed r)
    (hl : Leads number filed edit t t') : Later number fixed t t' := by
  induction hl with
  | refl => exact .refl t
  | tail _ hs ih => exact ih.trans (.step hedit hs)

/-- A row of the same number, however much later, is the same row. -/
theorem Later.same (h : Later number fixed t t') (ht : InOrder number t) {r r' : ρ} (hr : r ∈ t.rows)
    (hr' : r' ∈ t'.rows) (hsame : number r' = number r) : fixed r' = fixed r := by
  rcases h.rows r' hr' with ⟨s, hs, hnumber, hfixed⟩ | hnew
  · rw [ht.eq_of_number hr hs (hsame.symm.trans hnumber)]
    exact hfixed
  · have hbelow := ht.below r hr
    omega

/-- A number once given whose row is gone names no row again. -/
theorem Later.gone (h : Later number fixed t t') {n : Int} (hn : n < t.next) (hgone : ∀ r ∈ t.rows, number r ≠ n) :
    ∀ r' ∈ t'.rows, number r' ≠ n := by
  intro r' hr' hsame
  rcases h.rows r' hr' with ⟨r, hr, hnumber, -⟩ | hnew
  · exact hgone r hr (hnumber.symm.trans hsame)
  · omega

end Numbered

end Chanserv.Program
