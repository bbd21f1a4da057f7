import Mathlib.Data.List.Chain

/-! Lists that occur in their own escaped form.

An escape doubles a mark and writes the mark before some other elements. What it
leaves recognisable is then little: a list occurs in its escaped form exactly if
nothing between its first and its last unmarked element needs an escape
(`infix_flatMap_iff`). The argument counts: both lists have the same elements
but for marks, so an occurrence pairs them off one by one, and the gaps between
them must not have grown. -/
namespace Chanserv.Edges

variable {α : Type} [DecidableEq α]

/-- What an escape does: it doubles `mark`, writes it before the `marked` elements, and writes
the `lost` ones without using them. -/
structure Marking (α : Type) where
  mark : α
  marked : α → Bool
  lost : α → Bool

variable (k : Marking α)

structure Escapes (e : α → List α) : Prop where
  mark : e k.mark = [k.mark, k.mark]
  marked : ∀ c, c ≠ k.mark → k.lost c = false → k.marked c → e c = [k.mark, c]
  plain : ∀ c, c ≠ k.mark → k.lost c = false → k.marked c = false → e c = [c]
  kept : ∀ c, ∀ d ∈ e c, k.lost d = false

/-- Unmarked elements, then marks. -/
def tailPlain : List α → Bool
  | [] => true
  | c :: t => if c = k.mark then t.all (· = k.mark) else !k.lost c && !k.marked c && tailPlain t

/-- Marks, an element that may be a marked one, then as in `tailPlain`. -/
def edged : List α → Bool
  | [] => true
  | c :: t => if c = k.mark then edged t else !k.lost c && tailPlain k t

variable {k} {e : α → List α} {x : List α}

omit [DecidableEq α] in
theorem replicate_append_cons (b : α) (n : Nat) (l : List α) :
    List.replicate n b ++ b :: l = List.replicate (n + 1) b ++ l := by
  rw [List.replicate_succ', List.append_assoc, List.singleton_append]

/-! ### Edged lists occur -/

theorem exists_of_marks (he : Escapes k e) (h : x.all (· = k.mark)) :
    ∃ n, x ++ List.replicate n k.mark = x.flatMap e := by
  have hx : x = List.replicate x.length k.mark :=
    List.eq_replicate_iff.mpr ⟨rfl, fun c hc => by simpa using List.all_eq_true.mp h c hc⟩
  have hmark : e k.mark = List.replicate 2 k.mark := he.mark
  refine ⟨x.length, ?_⟩
  rw [hx, List.flatMap_replicate, hmark, List.flatten_replicate_replicate, List.length_replicate,
    List.replicate_append_replicate, Nat.mul_two]

theorem exists_of_tailPlain (he : Escapes k e) (h : tailPlain k x) :
    ∃ n, x ++ List.replicate n k.mark = x.flatMap e := by
  induction x with
  | nil => exact ⟨0, rfl⟩
  | cons c t ih =>
    rw [tailPlain] at h
    by_cases hc : c = k.mark
    · rw [if_pos hc] at h
      apply exists_of_marks he
      rw [List.all_cons, h, hc]
      simp
    · rw [if_neg hc, Bool.and_eq_true, Bool.and_eq_true, Bool.not_eq_true', Bool.not_eq_true'] at h
      obtain ⟨n, hn⟩ := ih h.2
      refine ⟨n, ?_⟩
      rw [List.flatMap_cons, he.plain c hc h.1.1 h.1.2, ← hn]
      rfl

theorem exists_of_edged (he : Escapes k e) (h : edged k x) :
    ∃ m n, List.replicate m k.mark ++ (x ++ List.replicate n k.mark) = x.flatMap e := by
  induction x with
  | nil => exact ⟨0, 0, rfl⟩
  | cons c t ih =>
    rw [edged] at h
    by_cases hc : c = k.mark
    · rw [if_pos hc] at h
      obtain ⟨m, n, hmn⟩ := ih h
      refine ⟨m + 1, n, ?_⟩
      rw [List.flatMap_cons, hc, he.mark, ← hmn, List.cons_append, replicate_append_cons,
        List.replicate_succ, List.replicate_succ]
      rfl
    · rw [if_neg hc, Bool.and_eq_true, Bool.not_eq_true'] at h
      obtain ⟨n, hn⟩ := exists_of_tailPlain he h.2
      by_cases hm : k.marked c
      · exact ⟨1, n, by rw [List.flatMap_cons, he.marked c hc h.1 hm, ← hn]; rfl⟩
      · exact ⟨0, n, by rw [List.flatMap_cons, he.plain c hc h.1 (by simpa using hm), ← hn]; rfl⟩

theorem infix_of_edged (he : Escapes k e) (h : edged k x) : x <:+: x.flatMap e := by
  obtain ⟨m, n, hmn⟩ := exists_of_edged he h
  exact ⟨_, _, (List.append_assoc ..).trans hmn⟩

/-! ### Lists that occur are edged -/

theorem marks_of_eq (he : Escapes k e) {r : List α} {j : Nat}
    (h : x ++ r = List.replicate (j + 1) k.mark ++ x.flatMap e) : x.all (· = k.mark) := by
  induction x generalizing j with
  | nil => rfl
  | cons c t ih =>
    rw [List.cons_append, List.replicate_succ, List.cons_append, List.cons.injEq] at h
    obtain ⟨rfl, h⟩ := h
    rw [List.flatMap_cons, he.mark, List.cons_append, replicate_append_cons, List.cons_append,
      replicate_append_cons, List.nil_append] at h
    rw [List.all_cons, ih h]
    simp

theorem tailPlain_of_eq (he : Escapes k e) (hx : ∀ c ∈ x, k.lost c = false) {r : List α}
    (h : x ++ r = x.flatMap e) : tailPlain k x := by
  induction x with
  | nil => rfl
  | cons c t ih =>
    rw [List.forall_mem_cons] at hx
    rw [tailPlain]
    rw [List.flatMap_cons, List.cons_append] at h
    by_cases hc : c = k.mark
    · rw [if_pos hc]
      rw [hc, he.mark, List.cons_append, List.cons.injEq] at h
      exact marks_of_eq he (j := 0) h.2
    · rw [if_neg hc, hx.1]
      cases hm : k.marked c with
      | true =>
        rw [he.marked c hc hx.1 hm, List.cons_append, List.cons.injEq] at h
        exact absurd h.1 hc
      | false =>
        rw [he.plain c hc hx.1 hm, List.cons_append, List.cons.injEq] at h
        exact ih hx.2 h.2

theorem dropMarks (b : α) (n : Nat) (l : List α) :
    (List.replicate n b ++ l).dropWhile (· = b) = l.dropWhile (· = b) := by
  induction n with
  | zero => rfl
  | succ n ih => rw [List.replicate_succ, List.cons_append, List.dropWhile_cons_of_pos (by simp), ih]

theorem edged_of_eq (he : Escapes k e) (hx : ∀ c ∈ x, k.lost c = false) {r : List α} {m j : Nat}
    (h : List.replicate m k.mark ++ (x ++ r) = List.replicate j k.mark ++ x.flatMap e) : edged k x := by
  induction x generalizing m j with
  | nil => rfl
  | cons c t ih =>
    rw [List.forall_mem_cons] at hx
    rw [edged]
    by_cases hc : c = k.mark
    · rw [if_pos hc]
      rw [hc, List.cons_append, replicate_append_cons, List.flatMap_cons, he.mark, List.cons_append,
        replicate_append_cons, List.cons_append, replicate_append_cons, List.nil_append] at h
      exact ih hx.2 h
    · rw [if_neg hc, hx.1]
      have hdrop := congrArg (List.dropWhile (· = k.mark)) h
      rw [dropMarks, dropMarks, List.cons_append, List.dropWhile_cons_of_neg (by simpa using hc),
        List.flatMap_cons] at hdrop
      cases hm : k.marked c with
      | true =>
        rw [he.marked c hc hx.1 hm, List.cons_append, List.dropWhile_cons_of_pos (by simp),
          List.singleton_append, List.dropWhile_cons_of_neg (by simpa using hc), List.cons.injEq] at hdrop
        exact tailPlain_of_eq he hx.2 hdrop.2
      | false =>
        rw [he.plain c hc hx.1 hm, List.singleton_append, List.dropWhile_cons_of_neg (by simpa using hc),
          List.cons.injEq] at hdrop
        exact tailPlain_of_eq he hx.2 hdrop.2

/-- Escaping adds nothing but marks to a list without lost elements. -/
theorem filter_flatMap (he : Escapes k e) (hx : ∀ c ∈ x, k.lost c = false) :
    (x.flatMap e).filter (· ≠ k.mark) = x.filter (· ≠ k.mark) := by
  induction x with
  | nil => rfl
  | cons c t ih =>
    rw [List.forall_mem_cons] at hx
    rw [List.flatMap_cons, List.filter_append, ih hx.2]
    by_cases hc : c = k.mark
    · rw [hc, he.mark]
      simp
    · cases hm : k.marked c with
      | true => simp [he.marked c hc hx.1 hm, hc]
      | false => simp [he.plain c hc hx.1 hm, hc]

theorem edged_of_part (he : Escapes k e) (h : x <:+: x.flatMap e) : edged k x := by
  have hx : ∀ c ∈ x, k.lost c = false := by
    intro c hc
    obtain ⟨d, -, hd⟩ := List.mem_flatMap.mp (h.subset hc)
    exact he.kept d c hd
  obtain ⟨l, r, hlr⟩ := h
  have hfilter := congrArg (fun y => (y.filter (· ≠ k.mark)).length) hlr
  simp only [List.filter_append, List.length_append, filter_flatMap he hx] at hfilter
  have hl : (l.filter (· ≠ k.mark)) = [] := List.length_eq_zero_iff.mp (by omega)
  have hmarks : l = List.replicate l.length k.mark := by
    apply List.eq_replicate_iff.mpr ⟨rfl, fun c hc => ?_⟩
    have := List.filter_eq_nil_iff.mp hl c hc
    simpa using this
  rw [hmarks, List.append_assoc] at hlr
  exact edged_of_eq he hx (j := 0) hlr

theorem infix_flatMap_iff (he : Escapes k e) : x <:+: x.flatMap e ↔ edged k x :=
  ⟨edged_of_part he, infix_of_edged he⟩

/-! ### Fewer marked elements -/

section
variable {f : α → Bool}

theorem tailPlain_mono (hf : ∀ c, f c → k.marked c) (h : tailPlain k x) :
    tailPlain {k with marked := f} x := by
  induction x with
  | nil => rfl
  | cons c t ih =>
    rw [tailPlain] at h ⊢
    by_cases hc : c = k.mark
    · rw [if_pos hc] at h ⊢
      exact h
    · rw [if_neg hc, Bool.and_eq_true, Bool.and_eq_true, Bool.not_eq_true', Bool.not_eq_true'] at h
      have hfc : f c = false := by
        by_contra hne
        have hm := hf c (by simpa using hne)
        rw [hm] at h
        cases h.1.2
      rw [if_neg hc, ih h.2]
      show (!k.lost c && !f c && true) = true
      rw [h.1.1, hfc]
      rfl

/-- A list that stands more escapes stands fewer. -/
theorem edged_mono (hf : ∀ c, f c → k.marked c) (h : edged k x) : edged {k with marked := f} x := by
  induction x with
  | nil => rfl
  | cons c t ih =>
    rw [edged] at h ⊢
    by_cases hc : c = k.mark
    · rw [if_pos hc] at h ⊢
      exact ih h
    · rw [if_neg hc, Bool.and_eq_true] at h
      rw [if_neg hc, h.1, tailPlain_mono hf h.2]
      rfl

end

/-! ### Elements that follow a mark -/

section
variable {p : α → Bool}

/-- Where `p` holds of an element only after a mark, it holds of none of the tail. -/
theorem tailPlain_of_chain {a : α} (ha : a ≠ k.mark)
    (hx : (a :: x).IsChain fun b c => p c → b = k.mark) (h : tailPlain k x) :
    tailPlain {k with marked := fun c => k.marked c || p c} x := by
  induction x generalizing a with
  | nil => rfl
  | cons c t ih =>
    rw [List.isChain_cons_cons] at hx
    rw [tailPlain] at h ⊢
    by_cases hc : c = k.mark
    · rw [if_pos hc] at h ⊢
      exact h
    · rw [if_neg hc, Bool.and_eq_true, Bool.and_eq_true, Bool.not_eq_true', Bool.not_eq_true'] at h
      have hp : p c = false := by
        by_contra hne
        exact ha (hx.1 (by simpa using hne))
      rw [if_neg hc, ih hc hx.2 h.2]
      show (!k.lost c && !(k.marked c || p c) && true) = true
      rw [h.1.1, h.1.2, hp]
      rfl

theorem edged_of_chain (hx : x.IsChain fun b c => p c → b = k.mark) (h : edged k x) :
    edged {k with marked := fun c => k.marked c || p c} x := by
  induction x with
  | nil => rfl
  | cons c t ih =>
    rw [edged] at h ⊢
    by_cases hc : c = k.mark
    · rw [if_pos hc] at h ⊢
      exact ih hx.tail h
    · rw [if_neg hc, Bool.and_eq_true] at h
      rw [if_neg hc, h.1, tailPlain_of_chain hc hx h.2]
      rfl

end

end Chanserv.Edges
