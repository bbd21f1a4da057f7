import Mathlib.Data.List.Basic

/-! Machines that leave a trace.

A step of a machine adds events to a trace, none or several. What holds of all
traces is shown by an invariant of trace and state, or by following the machine
with one that reads the trace event by event. -/
namespace Chanserv.Program

variable {σ ε α : Type}

/-- The runs of a machine from a state, with the trace they leave. -/
inductive Runs (step : σ → List ε → σ → Prop) (s₀ : σ) : List ε → σ → Prop
  | start : Runs step s₀ [] s₀
  | step {es es' : List ε} {s s' : σ} : Runs step s₀ es s → step s es' s' → Runs step s₀ (es ++ es') s'

/-- A machine reads a trace. -/
inductive Reads (next : α → ε → α → Prop) : α → List ε → α → Prop
  | nil (a : α) : Reads next a [] a
  | cons {a b c : α} {e : ε} {es : List ε} : next a e b → Reads next b es c → Reads next a (e :: es) c

/-- A property of every place in a list with one element more. -/
theorem forall_split_concat {P : List α → α → Prop} {l : List α} {y : α} :
    (∀ pre x post, l ++ [y] = pre ++ x :: post → P pre x) ↔
      (∀ pre x post, l = pre ++ x :: post → P pre x) ∧ P l y := by
  constructor
  · intro h
    refine ⟨fun pre x post hl => h pre x (post ++ [y]) ?_, h l y [] rfl⟩
    rw [hl, List.append_assoc, List.cons_append]
  · rintro ⟨hl, hy⟩ pre x post hsplit
    rcases List.eq_nil_or_concat post with rfl | ⟨post, z, rfl⟩
    · obtain ⟨rfl, hx⟩ := List.append_inj' hsplit rfl
      obtain rfl := (List.cons.inj hx).1
      exact hy
    · rw [List.concat_eq_append, ← List.cons_append, ← List.append_assoc] at hsplit
      exact hl pre x post (List.append_inj_left' hsplit rfl)

/-- The splits of a list, by their place. -/
theorem forall_split_iff {P : List α → α → Prop} {l : List α} :
    (∀ pre x post, l = pre ++ x :: post → P pre x) ↔ ∀ i : Fin l.length, P (l.take i) l[i] := by
  constructor
  · intro h i
    have hsplit : l.take i ++ l[i.val] :: l.drop (i + 1) = l := by
      rw [List.getElem_cons_drop, List.take_append_drop]
    exact h _ _ _ hsplit.symm
  · intro h pre x post hl
    subst hl
    have hi : pre.length < (pre ++ x :: post).length := by simp
    simpa using h ⟨pre.length, hi⟩

namespace Reads
variable {next : α → ε → α → Prop} {a b c : α} {es es' : List ε} {e : ε}

theorem rest (h : a = b) : Reads next a [] b := h ▸ .nil a

theorem one (h : next a e b) : Reads next a [e] b := .cons h (.nil b)

theorem append (h : Reads next a es b) (h' : Reads next b es' c) : Reads next a (es ++ es') c := by
  induction h with
  | nil => exact h'
  | cons hnext _ ih => exact .cons hnext (ih h')

theorem split (h : Reads next a (es ++ es') c) : ∃ b, Reads next a es b ∧ Reads next b es' c := by
  induction es generalizing a with
  | nil => exact ⟨a, .nil a, h⟩
  | cons e es ih =>
    cases h with
    | cons hnext hrest =>
      obtain ⟨b, hfirst, hsecond⟩ := ih hrest
      exact ⟨b, .cons hnext hfirst, hsecond⟩

/-- An event in the middle of a trace, and the states around it. -/
theorem at_event (h : Reads next a (es ++ e :: es') c) :
    ∃ b b', Reads next a es b ∧ next b e b' ∧ Reads next b' es' c := by
  obtain ⟨b, hfirst, hsecond⟩ := h.split
  cases hsecond with
  | cons hnext hrest => exact ⟨b, _, hfirst, hnext, hrest⟩

/-- What each event keeps, of what was read and the state, a trace keeps. -/
theorem invariant_after {I : List ε → α → Prop} (h : Reads next a es b) {before : List ε} (hstart : I before a)
    (hnext : ∀ es a e b, I es a → next a e b → I (es ++ [e]) b) : I (before ++ es) b := by
  induction h generalizing before with
  | nil =>
    rw [List.append_nil]
    exact hstart
  | cons hfirst _ ih =>
    rw [List.append_cons]
    exact ih (hnext _ _ _ _ hstart hfirst)

theorem invariant {I : List ε → α → Prop} (h : Reads next a es b) (hstart : I [] a)
    (hnext : ∀ es a e b, I es a → next a e b → I (es ++ [e]) b) : I es b :=
  h.invariant_after hstart hnext

end Reads

namespace Runs
variable {step : σ → List ε → σ → Prop} {s₀ s : σ} {es : List ε}

/-- An invariant of trace and state. -/
theorem invariant {I : List ε → σ → Prop} (h : Runs step s₀ es s) (hstart : I [] s₀)
    (hstep : ∀ es s es' s', I es s → step s es' s' → I (es ++ es') s') : I es s := by
  induction h with
  | start => exact hstart
  | step _ hs ih => exact hstep _ _ _ _ ih hs

theorem mono {step' : σ → List ε → σ → Prop} (h : Runs step s₀ es s)
    (hstep : ∀ s es' s', step s es' s' → step' s es' s') : Runs step' s₀ es s := by
  induction h with
  | start => exact .start
  | step _ hs ih => exact ih.step (hstep _ _ _ hs)

/-- A part of a machine that moves with it, or rests. -/
theorem part {τ ε' : Type} {step' : τ → List ε' → τ → Prop} {view : σ → τ} {seen : ε → Option ε'}
    (h : Runs step s₀ es s)
    (hstep : ∀ s es' s', step s es' s' →
      step' (view s) (es'.filterMap seen) (view s') ∨ es'.filterMap seen = [] ∧ view s' = view s) :
    Runs step' (view s₀) (es.filterMap seen) (view s) := by
  induction h with
  | start => exact .start
  | step _ hs ih =>
    rw [List.filterMap_append]
    rcases hstep _ _ _ hs with hmove | ⟨hrest, hsame⟩
    · exact ih.step hmove
    · rw [hrest, hsame, List.append_nil]
      exact ih

/-- A machine that can follow each step reads every trace. -/
theorem followed {next : α → ε → α → Prop} {a₀ : α} {R : σ → α → Prop} (h : Runs step s₀ es s)
    (hstart : R s₀ a₀)
    (hstep : ∀ s a es' s', R s a → step s es' s' → ∃ a', Reads next a es' a' ∧ R s' a') :
    ∃ a, Reads next a₀ es a ∧ R s a := by
  induction h with
  | start => exact ⟨a₀, .nil a₀, hstart⟩
  | step _ hs ih =>
    obtain ⟨a, hread, hr⟩ := ih
    obtain ⟨a', hread', hr'⟩ := hstep _ _ _ _ hr hs
    exact ⟨a', hread.append hread', hr'⟩

/-- Where no step leaves more than one event, a run can be cut anywhere in its trace. -/
theorem split {es' : List ε} (hone : ∀ s es s', step s es s' → es.length ≤ 1) (h : Runs step s₀ (es ++ es') s) :
    ∃ s₁, Runs step s₀ es s₁ ∧ Runs step s₁ es' s := by
  generalize hl : es ++ es' = l at h
  induction h generalizing es' with
  | start =>
    obtain ⟨rfl, rfl⟩ := List.append_eq_nil_iff.mp hl
    exact ⟨s₀, .start, .start⟩
  | @step es₀ last s s' hrun hs ih =>
    rcases List.eq_nil_or_concat es' with rfl | ⟨es', e, rfl⟩
    · rw [List.append_nil] at hl
      exact ⟨s', hl ▸ hrun.step hs, .start⟩
    · cases hlast : last with
      | nil =>
        rw [hlast, List.append_nil] at hl
        obtain ⟨s₁, hbefore, hafter⟩ := ih hl
        have hmore := hafter.step (hlast ▸ hs)
        rw [List.append_nil] at hmore
        exact ⟨s₁, hbefore, hmore⟩
      | cons e' rest =>
        have hrest : rest = [] := by
          have hlen := hone _ _ _ hs
          rw [hlast, List.length_cons] at hlen
          exact List.eq_nil_of_length_eq_zero (by omega)
        rw [hlast, hrest, List.concat_eq_append, ← List.append_assoc] at hl
        obtain ⟨hl, he⟩ := List.append_inj' hl rfl
        obtain ⟨s₁, hbefore, hafter⟩ := ih hl
        refine ⟨s₁, hbefore, ?_⟩
        rw [List.concat_eq_append, he]
        exact hafter.step (by rw [← hrest, ← hlast]; exact hs)

theorem append {es' : List ε} {s' : σ} (h : Runs step s₀ es s) (h' : Runs step s es' s') :
    Runs step s₀ (es ++ es') s' := by
  induction h' with
  | start =>
    rw [List.append_nil]
    exact h
  | step _ hs ih =>
    rw [← List.append_assoc]
    exact ih.step hs

/-- The step an event comes from, and the run around it. -/
theorem at_event {e : ε} {es' : List ε} (hone : ∀ s es s', step s es s' → es.length ≤ 1)
    (h : Runs step s₀ (es ++ e :: es') s) :
    ∃ s₁ s₂, Runs step s₀ es s₁ ∧ step s₁ [e] s₂ ∧ Runs step s₂ es' s := by
  have hsingle {a b : σ} {l : List ε} (hl : l = [e]) (h : Runs step a l b) :
      ∃ s₁ s₂, Runs step a [] s₁ ∧ step s₁ [e] s₂ ∧ Runs step s₂ [] b := by
    induction h with
    | start => cases hl
    | @step before last s s' hrun hs ih =>
      rcases List.append_eq_singleton_iff.mp hl with ⟨rfl, rfl⟩ | ⟨rfl, rfl⟩
      · exact ⟨s, s', hrun, hs, .start⟩
      · obtain ⟨s₁, s₂, hbefore, hevent, hafter⟩ := ih rfl
        exact ⟨s₁, s₂, hbefore, hevent, hafter.step hs⟩
  obtain ⟨a, hpre, hrest⟩ := h.split hone
  obtain ⟨b, hevent, hpost⟩ := (show Runs step a ([e] ++ es') s from hrest).split hone
  obtain ⟨s₁, s₂, hbefore, hstep, hafter⟩ := hsingle rfl hevent
  refine ⟨s₁, s₂, ?_, hstep, hafter.append hpost⟩
  rw [← List.append_nil es]
  exact hpre.append hbefore

/-- A potential that pays for what events yield, where all events are of one kind. -/
theorem potential {β : Type} {I : σ → Prop} {P : ε → Prop} {yield : ε → List β} {pot : σ → Nat}
    (h : Runs step s₀ es s) (hes : ∀ e ∈ es, P e) (hstart : I s₀)
    (hstep : ∀ s es' s', I s → (∀ e ∈ es', P e) → step s es' s' →
      I s' ∧ (es'.flatMap yield).length + pot s' ≤ pot s) :
    I s ∧ (es.flatMap yield).length + pot s ≤ pot s₀ := by
  induction h with
  | start => exact ⟨hstart, by simp⟩
  | step _ hs ih =>
    obtain ⟨hi, hpaid⟩ := ih fun e he => hes e (List.mem_append_left _ he)
    obtain ⟨hi', hpay⟩ := hstep _ _ _ hi (fun e he => hes e (List.mem_append_right _ he)) hs
    refine ⟨hi', ?_⟩
    rw [List.flatMap_append, List.length_append]
    omega

end Runs

/-! ### Commands -/

/-- What a machine tells while it takes commands: at each of them one event it has a reason for, or none. -/
inductive Tells {δ : Type} (run : σ → δ → σ) (reason : σ → δ → ε → Prop) : σ → List δ → List ε → Prop
  | nil (s : σ) : Tells run reason s [] []
  | quiet {s : σ} {d : δ} {ds : List δ} {es : List ε} (h : Tells run reason (run s d) ds es) : Tells run reason s (d :: ds) es
  | event {s : σ} {d : δ} {ds : List δ} {e : ε} {es : List ε} (he : reason s d e) (h : Tells run reason (run s d) ds es) :
      Tells run reason s (d :: ds) (e :: es)

/-- A command leaves the view of a machine alone, or moves it by an event it has a reason for. -/
structure Refines {δ : Type} (I : σ → Prop) (run : σ → δ → σ) (reason : σ → δ → ε → Prop) (next : α → ε → α → Prop)
    (view : σ → α) : Prop where
  keeps : ∀ (s : σ) (d : δ), I s → I (run s d)
  step : ∀ (s : σ) (d : δ), I s →
    view (run s d) = view s ∨ ∃ e, reason s d e ∧ next (view s) e (view (run s d))

/-- So the machine tells what its view reads. -/
theorem Refines.tells {δ : Type} {I : σ → Prop} {run : σ → δ → σ} {reason : σ → δ → ε → Prop} {next : α → ε → α → Prop}
    {view : σ → α} (h : Refines I run reason next view) (ds : List δ) {s : σ} (hs : I s) :
    ∃ es, Tells run reason s ds es ∧ Reads next (view s) es (view (ds.foldl run s)) := by
  induction ds generalizing s with
  | nil => exact ⟨[], .nil s, .nil (view s)⟩
  | cons d ds ih =>
    obtain ⟨es, htells, hreads⟩ := ih (h.keeps s d hs)
    rcases h.step s d hs with hsame | ⟨e, he, hnext⟩
    · rw [hsame] at hreads
      exact ⟨es, .quiet htells, hreads⟩
    · exact ⟨e :: es, .event he htells, .cons hnext hreads⟩

end Chanserv.Program
