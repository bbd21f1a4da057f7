import Mathlib.Data.List.Basic

/-! Programs over a state that survives a failure, and their logic.

A computation is an `EStateM ε σ α`: it ends with a value or with an error, and
in both cases with a state, so what was written before an exception stays
written. A call to the world outside is answered by a `Reply`, which the
environment chooses. `wp m Q E s` says that from `s` the program ends normally
in `Q` or abnormally in `E`; it is computed along the program, and loops have an
invariant rule. -/
namespace Chanserv.Program

variable {ε ε' σ τ α β ι : Type}

/-- What the outside world does with one call. -/
inductive Reply (ε α : Type) where
  | returns (a : α)
  | throws (e : ε)
deriving DecidableEq, Repr

/-- The call completes without an exception. -/
def Reply.Normal : Reply ε α → Prop
  | .returns _ => True
  | .throws _ => False

instance (r : Reply ε α) : Decidable r.Normal := by
  cases r <;> simp only [Reply.Normal] <;> infer_instance

theorem Reply.Normal.not_throws {r : Reply ε α} {e : ε} (h : r.Normal) : r ≠ .throws e := by
  rintro rfl
  exact h

/-- A call at the point where the program makes it. -/
def answer (r : Reply ε α) : EStateM ε σ α :=
  match r with
  | .returns a => pure a
  | .throws e => throw e

/-- Run `m` only when `c` holds. -/
def guarded (c : Prop) [Decidable c] (m : EStateM ε σ Unit) : EStateM ε σ Unit :=
  if c then m else pure ()

/-- Run `f` on every element, first to last. -/
def forEach : List ι → (ι → EStateM ε σ Unit) → EStateM ε σ Unit
  | [], _ => pure ()
  | i :: is, f => do f i; forEach is f

/-- Run `m`; an error goes to the handler, in the state where it arose. -/
def handling (m : EStateM ε σ α) (h : ε → EStateM ε' σ α) : EStateM ε' σ α := fun s =>
  match m.run s with
  | .ok a s' => .ok a s'
  | .error e s' => (h e).run s'

/-- Run `m` on a part of the state. -/
def zoom (get : τ → σ) (set : σ → τ → τ) (m : EStateM ε σ α) : EStateM ε τ α := fun t =>
  match m.run (get t) with
  | .ok a s => .ok a (set s t)
  | .error e s => .error e (set s t)

/-- The state a run ends in, whatever its outcome. -/
def final (m : EStateM ε σ α) (s : σ) : σ :=
  match m.run s with
  | .ok _ s' => s'
  | .error _ s' => s'

/-- The error a run ends with, if any. -/
def failure (m : EStateM ε σ α) (s : σ) : Option ε :=
  match m.run s with
  | .ok _ _ => none
  | .error e _ => some e

/-! ### How runs are computed -/

@[simp] theorem run_handling (m : EStateM ε σ α) (h : ε → EStateM ε' σ α) (s : σ) :
    (handling m h).run s =
      match m.run s with
      | .ok a s' => .ok a s'
      | .error e s' => (h e).run s' := rfl

@[simp] theorem run_zoom (get : τ → σ) (set : σ → τ → τ) (m : EStateM ε σ α) (t : τ) :
    (zoom get set m).run t =
      match m.run (get t) with
      | .ok a s => .ok a (set s t)
      | .error e s => .error e (set s t) := rfl

theorem final_of_ok {m : EStateM ε σ α} {s s' : σ} {a : α} (h : m.run s = .ok a s') :
    final m s = s' := by
  simp only [final, h]

/-! ### Weakest preconditions

`wp m Q E` is the condition under which `m` ends in `Q` or, failing, in `E`. The
equations below compute it along a program, one case for each answer of the
outside world. -/

def wp (m : EStateM ε σ α) (Q : α → σ → Prop) (E : ε → σ → Prop) (s : σ) : Prop :=
  match m.run s with
  | .ok a s' => Q a s'
  | .error e s' => E e s'

section wp
variable {Q Q' : α → σ → Prop} {E E' : ε → σ → Prop} {m : EStateM ε σ α} {s : σ}

theorem wp_mono (h : wp m Q' E' s) (hQ : ∀ a s', Q' a s' → Q a s')
    (hE : ∀ e s', E' e s' → E e s') : wp m Q E s := by
  unfold wp at *
  cases hm : m.run s with
  | ok a s' => rw [hm] at h; exact hQ a s' h
  | error e s' => rw [hm] at h; exact hE e s' h

theorem wp_congr (hE : ∀ e s', E e s' ↔ E' e s') : wp m Q E s ↔ wp m Q E' s :=
  ⟨fun h => wp_mono h (fun _ _ => id) fun e s' => (hE e s').mp,
    fun h => wp_mono h (fun _ _ => id) fun e s' => (hE e s').mpr⟩

theorem wp_and (h : wp m Q E s) (h' : wp m Q' E' s) :
    wp m (fun a s' => Q a s' ∧ Q' a s') (fun e s' => E e s' ∧ E' e s') s := by
  unfold wp at *
  cases hm : m.run s with
  | ok a s' => rw [hm] at h h'; exact ⟨h, h'⟩
  | error e s' => rw [hm] at h h'; exact ⟨h, h'⟩

theorem wp_forall {κ : Sort*} {Q : κ → α → σ → Prop} {E : κ → ε → σ → Prop} (h : ∀ i, wp m (Q i) (E i) s) :
    wp m (fun a s' => ∀ i, Q i a s') (fun e s' => ∀ i, E i e s') s := by
  unfold wp at *
  cases hm : m.run s with
  | ok a s' => intro i; have hi := h i; rw [hm] at hi; exact hi
  | error e s' => intro i; have hi := h i; rw [hm] at hi; exact hi

/-- The run that led to a postcondition can be kept with it. -/
theorem wp_run (h : wp m Q E s) :
    wp m (fun a s' => m.run s = .ok a s' ∧ Q a s') (fun e s' => m.run s = .error e s' ∧ E e s') s := by
  unfold wp at *
  cases hm : m.run s with
  | ok a s' => rw [hm] at h; exact ⟨rfl, h⟩
  | error e s' => rw [hm] at h; exact ⟨rfl, h⟩

@[simp] theorem wp_pure (a : α) : wp (pure a : EStateM ε σ α) Q E s ↔ Q a s := Iff.rfl

@[simp] theorem wp_throw (e : ε) : wp (throw e : EStateM ε σ α) Q E s ↔ E e s := Iff.rfl

@[simp] theorem wp_bind {R : β → σ → Prop} (f : α → EStateM ε σ β) :
    wp (m >>= f) R E s ↔ wp m (fun a s' => wp (f a) R E s') E s := by
  unfold wp
  rw [EStateM.run_bind]
  cases m.run s <;> rfl

@[simp] theorem wp_map {R : β → σ → Prop} (f : α → β) :
    wp (f <$> m) R E s ↔ wp m (fun a s' => R (f a) s') E s := by
  rw [← bind_pure_comp, wp_bind]
  exact Iff.rfl

@[simp] theorem wp_get {Q : σ → σ → Prop} :
    wp (get : EStateM ε σ σ) Q E s ↔ Q s s := Iff.rfl

@[simp] theorem wp_modify (f : σ → σ) {Q : PUnit → σ → Prop} :
    wp (modify f : EStateM ε σ PUnit) Q E s ↔ Q ⟨⟩ (f s) := Iff.rfl

@[simp] theorem wp_guarded (c : Prop) [Decidable c] {m : EStateM ε σ Unit}
    {Q : Unit → σ → Prop} :
    wp (guarded c m) Q E s ↔ (c → wp m Q E s) ∧ (¬c → Q () s) := by
  unfold guarded
  by_cases h : c
  · rw [if_pos h]
    exact ⟨fun hm => ⟨fun _ => hm, fun hc => absurd h hc⟩, fun hm => hm.1 h⟩
  · rw [if_neg h]
    exact ⟨fun hm => ⟨fun hc => absurd hc h, fun _ => hm⟩, fun hm => hm.2 h⟩

theorem wp_guarded_of {c : Prop} [Decidable c] {m : EStateM ε σ Unit} {Q : Unit → σ → Prop} (hc : c)
    (h : wp m Q E s) : wp (guarded c m) Q E s :=
  (wp_guarded c).mpr ⟨fun _ => h, fun hn => absurd hc hn⟩

theorem wp_guarded_of_not {c : Prop} [Decidable c] {m : EStateM ε σ Unit} {Q : Unit → σ → Prop} (hn : ¬c)
    (h : Q () s) : wp (guarded c m) Q E s :=
  (wp_guarded c).mpr ⟨fun hc => absurd hc hn, fun _ => h⟩

@[simp] theorem wp_ite (c : Prop) [Decidable c] (m' : EStateM ε σ α) :
    wp (if c then m else m') Q E s ↔ (c → wp m Q E s) ∧ (¬c → wp m' Q E s) := by
  by_cases h : c
  · rw [if_pos h]
    exact ⟨fun hm => ⟨fun _ => hm, fun hc => absurd h hc⟩, fun hm => hm.1 h⟩
  · rw [if_neg h]
    exact ⟨fun hm => ⟨fun hc => absurd hc h, fun _ => hm⟩, fun hm => hm.2 h⟩

@[simp] theorem wp_handling {F : ε' → σ → Prop} (h : ε → EStateM ε' σ α) :
    wp (handling m h) Q F s ↔ wp m Q (fun e s' => wp (h e) Q F s') s := by
  unfold wp
  rw [run_handling]
  cases m.run s <;> rfl

@[simp] theorem wp_zoom {get : τ → σ} {set : σ → τ → τ} {t : τ} {Q : α → τ → Prop}
    {E : ε → τ → Prop} :
    wp (zoom get set m) Q E t ↔
      wp m (fun a s' => Q a (set s' t)) (fun e s' => E e (set s' t)) (get t) := by
  unfold wp
  rw [run_zoom]
  cases m.run (get t) <;> rfl

/-- What every round keeps, the loop keeps. -/
theorem wp_forEach {I : σ → Prop} {is : List ι} {f : ι → EStateM ε σ Unit}
    (hf : ∀ i ∈ is, ∀ s, I s → wp (f i) (fun _ => I) E s) (hs : I s) :
    wp (forEach is f) (fun _ => I) E s := by
  induction is generalizing s with
  | nil => exact hs
  | cons i is ih =>
    rw [forEach, wp_bind]
    refine wp_mono (hf i (List.mem_cons_self ..) s hs) (fun _ s' hs' => ?_) fun _ _ => id
    exact ih (fun j hj => hf j (List.mem_cons_of_mem i hj)) hs'

/-- A loop over a numbered list, by what holds before each round. -/
theorem wp_forEach_zipIdx {I : Nat → σ → Prop} {is : List ι} {f : ι × Nat → EStateM ε σ Unit} {n : Nat}
    (hf : ∀ i k s, I k s → wp (f (i, k)) (fun _ => I (k + 1)) E s) (hs : I n s) :
    wp (forEach (is.zipIdx n) f) (fun _ => I (n + is.length)) E s := by
  induction is generalizing n s with
  | nil => exact hs
  | cons i is ih =>
    rw [List.zipIdx_cons, forEach, wp_bind, List.length_cons, Nat.add_comm is.length, ← Nat.add_assoc]
    exact wp_mono (hf i n s hs) (fun _ _ hs' => ih hs') fun _ _ he => he

/-- A loop completes exactly when each of its rounds does. -/
theorem wp_forEach_iff {I : σ → Prop} {P : ι → Prop} {is : List ι} {f : ι → EStateM ε σ Unit}
    (hf : ∀ i ∈ is, ∀ s, I s → wp (f i) (fun _ s' => P i ∧ I s') (fun _ s' => ¬P i ∧ I s') s)
    (hs : I s) :
    wp (forEach is f) (fun _ s' => (∀ i ∈ is, P i) ∧ I s') (fun _ s' => (¬∀ i ∈ is, P i) ∧ I s') s := by
  induction is generalizing s with
  | nil => exact ⟨by simp, hs⟩
  | cons i is ih =>
    rw [forEach, wp_bind]
    apply wp_mono (hf i (List.mem_cons_self ..) s hs)
    · intro _ s' h
      apply wp_mono (ih (fun j hj => hf j (List.mem_cons_of_mem i hj)) h.2)
      · intro _ s'' h'
        exact ⟨List.forall_mem_cons.mpr ⟨h.1, h'.1⟩, h'.2⟩
      · intro _ s'' h'
        exact ⟨fun hall => h'.1 (List.forall_mem_cons.mp hall).2, h'.2⟩
    · intro _ s' h
      exact ⟨fun hall => h.1 (List.forall_mem_cons.mp hall).1, h.2⟩

theorem wp_forEach_append {Q : Unit → σ → Prop} (is js : List ι) (f : ι → EStateM ε σ Unit) :
    wp (forEach (is ++ js) f) Q E s ↔
      wp (forEach is f) (fun _ s' => wp (forEach js f) Q E s') E s := by
  induction is generalizing s with
  | nil => exact Iff.rfl
  | cons i is ih =>
    rw [List.cons_append, forEach, wp_bind, forEach, wp_bind]
    constructor
    · exact fun h => wp_mono h (fun _ _ => ih.mp) fun _ _ => id
    · exact fun h => wp_mono h (fun _ _ => ih.mpr) fun _ _ => id

/-- All rounds but one keep a property, and that one turns it into another. -/
theorem wp_forEach_at {P P' : σ → Prop} {before after : List ι} {i : ι} {f : ι → EStateM ε σ Unit}
    (hbefore : ∀ j ∈ before, ∀ s, P s → wp (f j) (fun _ => P) E s)
    (hround : ∀ s, P s → wp (f i) (fun _ => P') E s)
    (hafter : ∀ j ∈ after, ∀ s, P' s → wp (f j) (fun _ => P') E s) (hs : P s) :
    wp (forEach (before ++ i :: after) f) (fun _ => P') E s := by
  rw [wp_forEach_append]
  refine wp_mono (wp_forEach hbefore hs) (fun _ s' hs' => ?_) fun _ _ => id
  rw [forEach, wp_bind]
  exact wp_mono (hround s' hs') (fun _ _ hs'' => wp_forEach hafter hs'') fun _ _ => id

/-- The state reached and the error raised, from a condition on both. -/
theorem of_wp {P : Option ε → σ → Prop}
    (h : wp m (fun _ => P none) (fun e => P (some e)) s) : P (failure m s) (final m s) := by
  unfold wp at h
  unfold failure final
  cases hm : m.run s with
  | ok a s' => rw [hm] at h; exact h
  | error e s' => rw [hm] at h; exact h

end wp

/-- One answer for each element of a list. -/
theorem forall_mem_zipIdx {l : List ι} {P : Nat → Prop} :
    (∀ x ∈ l.zipIdx, P x.2) ↔ ∀ i < l.length, P i := by
  constructor
  · intro h i hi
    exact h (l[i], i) (List.mk_mem_zipIdx_iff_getElem?.mpr (List.getElem?_eq_getElem hi))
  · intro h x hx
    exact h x.2 (by simpa using (List.mem_zipIdx hx).2.1)

/-! ### Frames

A program keeps a view of the state when every run leaves it as it was; the
errors it may raise are of `E`. -/

def Keeps (view : σ → β) (E : ε → Prop) (m : EStateM ε σ α) : Prop :=
  ∀ s, wp m (fun _ s' => view s' = view s) (fun e s' => E e ∧ view s' = view s) s

namespace Keeps
variable {γ : Type} {view : σ → γ} {E E' : ε → Prop} {m : EStateM ε σ α}

theorem done (a : α) : Keeps view E (pure a : EStateM ε σ α) := fun _ => rfl

theorem fails {e : ε} (h : E e) : Keeps view E (throw e : EStateM ε σ α) := fun _ => ⟨h, rfl⟩

theorem reads : Keeps view E (get : EStateM ε σ σ) := fun _ => rfl

theorem writes {f : σ → σ} (h : ∀ s, view (f s) = view s) :
    Keeps view E (modify f : EStateM ε σ PUnit) := h

theorem mono (h : Keeps view E m) (hE : ∀ e, E e → E' e) : Keeps view E' m := fun s =>
  wp_mono (h s) (fun _ _ => id) fun e _ he => ⟨hE e he.1, he.2⟩

/-- What is kept from a state on is kept from any state that looks the same. -/
theorem from_ {s₀ s : σ} (h : Keeps view E m) (hs : view s = view s₀) :
    wp m (fun _ s' => view s' = view s₀) (fun e s' => E e ∧ view s' = view s₀) s :=
  wp_mono (h s) (fun _ _ hs' => hs'.trans hs) fun _ _ he => ⟨he.1, he.2.trans hs⟩

theorem bind {f : α → EStateM ε σ β} (hm : Keeps view E m) (hf : ∀ a, Keeps view E (f a)) :
    Keeps view E (m >>= f) := fun s => by
  rw [wp_bind]
  exact wp_mono (hm s) (fun a _ hs => (hf a).from_ hs) fun _ _ => id

theorem guarded {c : Prop} [Decidable c] {m : EStateM ε σ Unit} (hm : c → Keeps view E m) :
    Keeps view E (guarded c m) := fun s =>
  (wp_guarded c).mpr ⟨fun hc => hm hc s, fun _ => rfl⟩

theorem ite {c : Prop} [Decidable c] {m' : EStateM ε σ α} (hm : Keeps view E m)
    (hm' : Keeps view E m') : Keeps view E (if c then m else m') := by
  split
  · exact hm
  · exact hm'

theorem forEach {is : List ι} {f : ι → EStateM ε σ Unit} (hf : ∀ i ∈ is, Keeps view E (f i)) :
    Keeps view E (forEach is f) := fun _ =>
  wp_forEach (fun i hi _ hs => (hf i hi).from_ hs) rfl

theorem handling {F : ε' → Prop} {h : ε → EStateM ε' σ α} (hm : Keeps view E m)
    (hh : ∀ e, E e → Keeps view F (h e)) : Keeps view F (handling m h) := fun s =>
  (wp_handling h).mpr (wp_mono (hm s) (fun _ _ => id) fun e _ he => (hh e he.1).from_ he.2)

theorem zoom {δ : Type} {v : τ → δ} {get : τ → σ} {set : σ → τ → τ} (hm : Keeps view E m)
    (hv : ∀ t s, view s = view (get t) → v (set s t) = v t) :
    Keeps v E (zoom get set m) := fun t =>
  wp_zoom.mpr (wp_mono (hm (get t)) (fun _ s hs => hv t s hs) fun _ s he => ⟨he.1, hv t s he.2⟩)

end Keeps

/-! ### Steps of a preorder

A program stays within a relation when every run leads from a state to a related
one, whether it completes or fails. Frames are the case of an equality; a trace
that grows, or a table that loses rows only in certain ways, are others. -/

def Within (R : σ → σ → Prop) (m : EStateM ε σ α) : Prop :=
  ∀ s, wp m (fun _ s' => R s s') (fun _ s' => R s s') s

namespace Within
variable {R : σ → σ → Prop} {m : EStateM ε σ α}

theorem writes {f : σ → σ} (h : ∀ s, R s (f s)) : Within R (modify f : EStateM ε σ PUnit) := h

section
variable [Std.Refl R]

theorem done (a : α) : Within R (pure a : EStateM ε σ α) := fun s => Std.Refl.refl s

theorem fails {e : ε} : Within R (throw e : EStateM ε σ α) := fun s => Std.Refl.refl s

theorem reads : Within R (get : EStateM ε σ σ) := fun s => Std.Refl.refl s

theorem guarded {c : Prop} [Decidable c] {m : EStateM ε σ Unit} (hm : c → Within R m) :
    Within R (guarded c m) := fun s =>
  (wp_guarded c).mpr ⟨fun hc => hm hc s, fun _ => Std.Refl.refl s⟩

end

section
variable [IsTrans σ R]

/-- What is within reach of a state reached is within reach. -/
theorem from_ {s₀ s : σ} (h : Within R m) (hs : R s₀ s) :
    wp m (fun _ s' => R s₀ s') (fun _ s' => R s₀ s') s :=
  wp_mono (h s) (fun _ _ => IsTrans.trans _ _ _ hs) fun _ _ => IsTrans.trans _ _ _ hs

theorem bind {f : α → EStateM ε σ β} (hm : Within R m) (hf : ∀ a, Within R (f a)) :
    Within R (m >>= f) := fun s => by
  rw [wp_bind]
  exact wp_mono (hm s) (fun a _ hs => (hf a).from_ hs) fun _ _ h => h

theorem handling {h : ε → EStateM ε' σ α} (hm : Within R m) (hh : ∀ e, Within R (h e)) :
    Within R (handling m h) := fun s =>
  (wp_handling h).mpr (wp_mono (hm s) (fun _ _ hs => hs) fun e _ hs => (hh e).from_ hs)

theorem forEach [Std.Refl R] {is : List ι} {f : ι → EStateM ε σ Unit}
    (hf : ∀ i ∈ is, Within R (f i)) : Within R (forEach is f) := fun s =>
  wp_forEach (I := R s) (fun i hi _ hs => (hf i hi).from_ hs) (Std.Refl.refl s)

end

theorem zoom {R' : τ → τ → Prop} {get : τ → σ} {set : σ → τ → τ} (hm : Within R m)
    (hR : ∀ t s, R (get t) s → R' t (set s t)) : Within R' (zoom get set m) := fun t =>
  wp_zoom.mpr (wp_mono (hm (get t)) (fun _ s => hR t s) fun _ s => hR t s)

end Within

end Chanserv.Program
