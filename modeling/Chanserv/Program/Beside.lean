import Chanserv.Program.Logic

/-! A thread beside the one that started it.

The thread is joined where the scope it was started in ends, so its steps and those of
its starter are made in any order that keeps both. The environment says how far the
starter gets: how many more of its steps are made before each step of the thread. An
error of the thread is an error of the process; one of the starter waits for the thread. -/
namespace Chanserv.Program

variable {ε σ : Type}

/-- Run `m`; an error that waits does so until `rest` is done. -/
def joining (waits : ε → Bool) (rest m : EStateM ε σ Unit) : EStateM ε σ Unit :=
  handling m fun e => do
    guarded (waits e) rest
    throw e

/-- The steps `ts` of a thread and the steps `ms` of its starter. -/
def beside (inThread : EStateM ε σ Unit → EStateM ε σ Unit) (waits : ε → Bool) (ahead : Nat → Nat) :
    List (EStateM ε σ Unit) → List (EStateM ε σ Unit) → EStateM ε σ Unit
  | [], ms => forEach ms id
  | t :: ts, ms => do
    joining waits (forEach (t :: ts) inThread) (forEach (ms.take (ahead 0)) id)
    inThread t
    beside inThread waits (fun i => ahead (i + 1)) ts (ms.drop (ahead 0))

/-- How many steps the starter is asked for before a step of the thread. -/
def made (ahead : Nat → Nat) : Nat → Nat
  | 0 => ahead 0
  | i + 1 => ahead 0 + made (fun j => ahead (j + 1)) i

section
variable {inThread : EStateM ε σ Unit → EStateM ε σ Unit} {waits : ε → Bool} {ahead : Nat → Nat}
  {ts ms : List (EStateM ε σ Unit)} {s : σ}

theorem wp_joining {Q : Unit → σ → Prop} {E : ε → σ → Prop} {rest m : EStateM ε σ Unit} :
    wp (joining waits rest m) Q E s ↔
      wp m Q (fun e s' => (waits e → wp rest (fun _ => E e) E s') ∧ (¬waits e → E e s')) s := by
  rw [joining, wp_handling]
  refine wp_congr fun e s' => ?_
  rw [wp_bind, wp_guarded]
  exact Iff.rfl

/-- Steps one after another, by what holds before each. -/
theorem wp_forEach_steps {ι : Type} {is : List ι} {f : ι → EStateM ε σ Unit} {I : Nat → σ → Prop} {E : ε → σ → Prop}
    (hstep : ∀ k i, is[k]? = some i → ∀ s, I k s → wp (f i) (fun _ => I (k + 1)) E s) (hs : I 0 s) :
    wp (forEach is f) (fun _ => I is.length) E s := by
  induction is generalizing I s with
  | nil => exact hs
  | cons i is ih =>
    rw [forEach, wp_bind, List.length_cons]
    refine wp_mono (hstep 0 i rfl s hs) (fun _ s' hs' => ?_) fun _ _ h => h
    exact ih (I := fun k => I (k + 1)) (fun k j hj => hstep (k + 1) j hj) hs'

/-- The first of them only. -/
theorem wp_forEach_take {ι : Type} {is : List ι} {n : Nat} {f : ι → EStateM ε σ Unit} {I : Nat → σ → Prop}
    {E : ε → σ → Prop} (hstep : ∀ k i, is[k]? = some i → ∀ s, I k s → wp (f i) (fun _ => I (k + 1)) E s) (hs : I 0 s) :
    wp (forEach (is.take n) f) (fun _ => I (min n is.length)) E s := by
  rw [← List.length_take]
  refine wp_forEach_steps (fun k i hi => hstep k i ?_) hs
  have hk : k < (is.take n).length := (List.getElem?_eq_some_iff.mp hi).1
  rw [List.length_take] at hk
  rw [← List.getElem?_take_of_lt (show k < n by omega)]
  exact hi

/-- Both parties keep what is said of how far they are. When the thread fails, the starter has made the steps it is
asked for; when the starter fails, the thread runs on. -/
theorem wp_beside {I : Nat → Nat → σ → Prop} {F : Nat → Nat → ε → σ → Prop} {J : Nat → ε → σ → Prop} {K : ε → σ → Prop}
    (hthread : ∀ i t, ts[i]? = some t → ∀ k s, I i k s → wp (inThread t) (fun _ => I (i + 1) k) (F i k) s)
    (hstarter : ∀ k m, ms[k]? = some m → ∀ i s, I i k s →
      wp m (fun _ => I i (k + 1)) (fun e s' => waits e = true ∧ J i e s') s)
    (hjoin : ∀ i t, ts[i]? = some t → ∀ e s, J i e s → wp (inThread t) (fun _ => J (i + 1) e) K s) (hs : I 0 0 s) :
    wp (beside inThread waits ahead ts ms) (fun _ => I ts.length ms.length)
      (fun e s' => J ts.length e s' ∨ K e s' ∨ ∃ i < ts.length, F i (min ms.length (made ahead i)) e s') s := by
  induction ts generalizing I F J ahead ms s with
  | nil =>
    refine wp_mono (wp_forEach_steps (I := I 0) (fun k m hm s => hstarter k m hm 0 s) hs) ?_ ?_
    · exact fun _ _ h => h
    · exact fun _ _ h => .inl h.2
  | cons t ts ih =>
    rw [beside, wp_bind, wp_joining]
    refine wp_mono (wp_forEach_take (I := I 0) (fun k m hm => hstarter k m hm 0) hs) (fun _ s₁ h₁ => ?_) fun e s₁ h₁ =>
      ⟨fun _ => ?_, fun hno => absurd h₁.1 hno⟩
    · rw [wp_bind]
      refine wp_mono (hthread 0 t rfl _ s₁ h₁) (fun _ s₂ h₂ => ?_) fun e s₂ h₂ => .inr (.inr ⟨0, Nat.succ_pos _, ?_⟩)
      · -- the rest, counted from here
        refine wp_mono (ih (I := fun i k => I (i + 1) (min (ahead 0) ms.length + k))
          (F := fun i k => F (i + 1) (min (ahead 0) ms.length + k)) (J := fun i => J (i + 1))
          (fun i t ht k => hthread (i + 1) t ht _) (fun k m hm i s hi => ?_) (fun i t ht => hjoin (i + 1) t ht) h₂) ?_ ?_
        · have hk : min (ahead 0) ms.length + k = ahead 0 + k := by
            have hlt : k < (ms.drop (ahead 0)).length := (List.getElem?_eq_some_iff.mp hm).1
            rw [List.length_drop] at hlt
            omega
          rw [hk] at hi
          rw [← Nat.add_assoc, hk]
          exact hstarter (ahead 0 + k) m (List.getElem?_drop ▸ hm) (i + 1) s hi
        · intro _ s' hs'
          have hall : min (ahead 0) ms.length + (ms.drop (ahead 0)).length = ms.length := by
            rw [List.length_drop]
            omega
          rw [hall] at hs'
          exact hs'
        · rintro e s' (hj | hk | ⟨i, hi, hf⟩)
          · exact .inl hj
          · exact .inr (.inl hk)
          · have hsum : min (ahead 0) ms.length + min (ms.drop (ahead 0)).length (made (fun j => ahead (j + 1)) i) =
                min ms.length (made ahead (i + 1)) := by
              rw [made, List.length_drop]
              omega
            rw [hsum] at hf
            exact .inr (.inr ⟨i + 1, Nat.succ_lt_succ hi, hf⟩)
      · rw [made, Nat.min_comm]
        exact h₂
    · have hrest : wp (forEach (t :: ts) inThread) (fun _ => J (t :: ts).length e) K s₁ :=
        wp_forEach_steps (I := fun i => J i e) (fun i t ht s hj => hjoin i t ht e s hj) h₁.2
      exact wp_mono hrest (fun _ _ h => .inl h) fun _ _ h => .inr (.inl h)

end

/-! ### Steps that keep something -/

section
variable {inThread : EStateM ε σ Unit → EStateM ε σ Unit} {waits : ε → Bool} {ahead : Nat → Nat}
  {ts ms : List (EStateM ε σ Unit)}

theorem Within.beside {R : σ → σ → Prop} [Std.Refl R] [IsTrans σ R] (hthread : ∀ t ∈ ts, Within R (inThread t))
    (hstarter : ∀ m ∈ ms, Within R m) : Within R (beside inThread waits ahead ts ms) := by
  induction ts generalizing ahead ms with
  | nil => exact Within.forEach hstarter
  | cons t ts ih =>
    have hjoined : Within R (joining waits (Program.forEach (t :: ts) inThread) (Program.forEach (ms.take (ahead 0)) id)) :=
      (Within.forEach fun m hm => hstarter m (List.mem_of_mem_take hm)).handling fun e =>
        (Within.guarded fun _ => Within.forEach hthread).bind fun _ => .fails
    refine hjoined.bind fun _ => (hthread t List.mem_cons_self).bind fun _ => ?_
    exact ih (fun t ht => hthread t (List.mem_cons_of_mem _ ht)) fun m hm => hstarter m (List.mem_of_mem_drop hm)

theorem Keeps.beside {β : Type} {view : σ → β} {E : ε → Prop} (hthread : ∀ t ∈ ts, Keeps view E (inThread t))
    (hstarter : ∀ m ∈ ms, Keeps view E m) : Keeps view E (beside inThread waits ahead ts ms) := by
  induction ts generalizing ahead ms with
  | nil => exact Keeps.forEach hstarter
  | cons t ts ih =>
    have hjoined : Keeps view E (joining waits (Program.forEach (t :: ts) inThread) (Program.forEach (ms.take (ahead 0)) id)) :=
      (Keeps.forEach fun m hm => hstarter m (List.mem_of_mem_take hm)).handling fun e he =>
        (Keeps.guarded fun _ => Keeps.forEach hthread).bind fun _ => .fails he
    refine hjoined.bind fun _ => (hthread t List.mem_cons_self).bind fun _ => ?_
    exact ih (fun t ht => hthread t (List.mem_cons_of_mem _ ht)) fun m hm => hstarter m (List.mem_of_mem_drop hm)

end

end Chanserv.Program
