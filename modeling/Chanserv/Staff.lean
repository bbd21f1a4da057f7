import Chanserv.Outside
import Mathlib.Data.Nat.Find

/-! Notices to the staff, beside other work.

A notice goes to one employee after another, by a thread. Where the thread is joined at the end
of a scope, the handler goes on meanwhile: a sending that fails for more than Telegram's
reasons ends the process wherever the handler is then. -/
namespace Chanserv
open Text Program

section
variable {cfg : Config} {text : Text} {kb : Keyboard} {r : Nat → Sending} {ahead : Nat → Nat}

/-- No sending to the staff fails but by a `TgException`. -/
def StaffSpared (cfg : Config) (r : Nat → Sending) : Prop :=
  ∀ i < cfg.vStaff.length, r i ≠ .throws .stdException

instance (cfg : Config) (r : Nat → Sending) : Decidable (StaffSpared cfg r) :=
  inferInstanceAs (Decidable (∀ i < cfg.vStaff.length, r i ≠ .throws .stdException))

/-- This is the first one that does. -/
structure FailsAt (cfg : Config) (r : Nat → Sending) (i : Nat) : Prop where
  employee : i < cfg.vStaff.length
  failed : r i = .throws .stdException
  first : ∀ j < i, r j ≠ .throws .stdException

theorem FailsAt.not_spared {i : Nat} (h : FailsAt cfg r i) : ¬StaffSpared cfg r := fun hs => hs i h.employee h.failed

theorem FailsAt.unique {i j : Nat} (h : FailsAt cfg r i) (h' : FailsAt cfg r j) : i = j := by
  rcases Nat.lt_trichotomy i j with hlt | heq | hlt
  · exact absurd h.failed (h'.first i hlt)
  · exact heq
  · exact absurd h'.failed (h.first j hlt)

/-- Of the sendings that do, one is the first. -/
theorem exists_failsAt (h : ¬StaffSpared cfg r) : ∃ i, FailsAt cfg r i := by
  have hsome : ∃ i, i < cfg.vStaff.length ∧ r i = .throws .stdException := by
    by_contra hnone
    exact h fun i hi hfailed => hnone ⟨i, hi, hfailed⟩
  have hfound := Nat.find_spec hsome
  refine ⟨Nat.find hsome, hfound.1, hfound.2, fun j hj hfailed => ?_⟩
  exact Nat.find_min hsome hj ⟨Nat.lt_trans hj hfound.1, hfailed⟩

theorem length_noticesToStaff : (noticesToStaff cfg text kb r).length = cfg.vStaff.length := by
  rw [noticesToStaff, List.length_map, List.length_zipIdx]

/-- One message of a notice: it is tried, and what it fails with may end the process. -/
theorem wp_notice {i : Nat} {t : ServiceM Unit} (ht : (noticesToStaff cfg text kb r)[i]? = some t) {s : Shared} :
    ∃ employee, cfg.vStaff[i]? = some employee ∧
      wp (inThread t)
        (fun _ s' => r i ≠ .throws .stdException ∧ s' = s.log (.sendMessage (.user employee) text kb))
        (fun stop s' => (r i = .throws .stdException ∧ stop = .terminate) ∧
          s' = s.log (.sendMessage (.user employee) text kb)) s := by
  rw [noticesToStaff, List.getElem?_map, List.getElem?_zipIdx, Option.map_map, Option.map_eq_some_iff] at ht
  obtain ⟨employee, hi, rfl⟩ := ht
  refine ⟨employee, hi, ?_⟩
  rw [wp_inThread]
  dsimp only [Function.comp]
  rw [Nat.zero_add, wp_catchingTg, wp_bind, wp_call]
  refine ⟨fun sent hsent => ⟨?_, rfl⟩, fun e he => ?_⟩
  · rw [hsent]
    exact fun h => by cases h
  · cases e with
    | tgException =>
      refine ⟨?_, rfl⟩
      rw [he]
      exact fun h => by cases h
    | stdException => exact ⟨⟨he, rfl⟩, rfl⟩

/-- A notice beside the statements `ms`, by what holds when so many messages are tried and so many statements made. -/
theorem wp_besideNotice {I : Nat → Nat → Shared → Prop} {J : Nat → Shared → Prop} {ms : List (ServiceM Unit)} {s : Shared}
    (hnotice : ∀ i employee, cfg.vStaff[i]? = some employee → ∀ k s, I i k s →
      I (i + 1) k (s.log (.sendMessage (.user employee) text kb)))
    (hstarter : ∀ k m, ms[k]? = some m → ∀ i s, I i k s →
      wp m (fun _ => I i (k + 1)) (fun stop s' => stop.fatal = false ∧ J i s') s)
    (hjoin : ∀ i employee, cfg.vStaff[i]? = some employee → ∀ s, J i s →
      J (i + 1) (s.log (.sendMessage (.user employee) text kb)))
    (hs : I 0 0 s) :
    wp (besideThread ahead (noticesToStaff cfg text kb r) ms)
      (fun _ s' => StaffSpared cfg r ∧ I cfg.vStaff.length ms.length s')
      (fun stop s' => (stop.fatal = false ∧ J cfg.vStaff.length s') ∨
        (stop.fatal = true ∧ ¬StaffSpared cfg r ∧ ∃ i, J (i + 1) s') ∨
        stop.fatal = true ∧ ∃ i, FailsAt cfg r i ∧ I (i + 1) (min ms.length (made ahead i)) s') s := by
  let Tried (i : Nat) : Prop := ∀ j < i, r j ≠ .throws .stdException
  have htried {i : Nat} (h : Tried i) (hi : r i ≠ .throws .stdException) : Tried (i + 1) := by
    intro j hj
    rcases Nat.lt_succ_iff_lt_or_eq.mp hj with hj | rfl
    · exact h j hj
    · exact hi
  refine wp_mono (wp_beside (I := fun i k s => Tried i ∧ I i k s)
    (F := fun i k stop s => stop.fatal = true ∧ r i = .throws .stdException ∧ Tried i ∧ I (i + 1) k s)
    (J := fun i stop s => stop.fatal = false ∧ J i s)
    (K := fun stop s => stop.fatal = true ∧ ¬StaffSpared cfg r ∧ ∃ i, J (i + 1) s)
    ?_ ?_ ?_ ⟨fun _ hj => absurd hj (Nat.not_lt_zero _), hs⟩) ?_ ?_
  · intro i t ht k s h
    obtain ⟨employee, hemployee, hwp⟩ := wp_notice ht
    refine wp_mono hwp ?_ ?_
    · rintro _ s' ⟨hok, rfl⟩
      exact ⟨htried h.1 hok, hnotice i employee hemployee k s h.2⟩
    · rintro stop s' ⟨⟨hfailed, rfl⟩, rfl⟩
      exact ⟨rfl, hfailed, h.1, hnotice i employee hemployee k s h.2⟩
  · intro k m hm i s h
    refine wp_mono (hstarter k m hm i s h.2) (fun _ s' hs' => ⟨h.1, hs'⟩) fun stop s' hs' => ?_
    exact ⟨by rw [hs'.1]; rfl, hs'⟩
  · intro i t ht stop s h
    obtain ⟨employee, hemployee, hwp⟩ := wp_notice ht
    refine wp_mono hwp ?_ ?_
    · rintro _ s' ⟨-, rfl⟩
      exact ⟨h.1, hjoin i employee hemployee s h.2⟩
    · rintro _ s' ⟨⟨hfailed, rfl⟩, rfl⟩
      have hi : i < cfg.vStaff.length := (List.getElem?_eq_some_iff.mp hemployee).1
      exact ⟨rfl, fun hspared => hspared i hi hfailed, i, hjoin i employee hemployee s h.2⟩
  · rintro _ s' ⟨hspared, hall⟩
    rw [length_noticesToStaff] at hspared hall
    exact ⟨hspared, hall⟩
  · rw [length_noticesToStaff]
    rintro stop s' (h | h | ⟨i, hi, hfatal, hfailed, hfirst, h⟩)
    · exact .inl h
    · exact .inr (.inl h)
    · exact .inr (.inr ⟨hfatal, i, ⟨hi, hfailed, hfirst⟩, h⟩)

/-- A notice no sending of which fails for more leaves what is done beside it. -/
theorem besideNotice_spared {ms : List (ServiceM Unit)} (h : StaffSpared cfg r)
    (hms : ∀ m ∈ ms, ∀ s, wp m (fun _ _ => True) (fun stop _ => stop.fatal = false) s) (s : Shared) :
    wp (besideThread ahead (noticesToStaff cfg text kb r) ms) (fun _ _ => True) (fun stop _ => stop.fatal = false) s := by
  refine wp_mono (wp_besideNotice (I := fun _ _ _ => True) (J := fun _ _ => True) (fun _ _ _ _ _ _ => trivial)
    (fun k m hm i s _ => ?_) (fun _ _ _ _ _ => trivial) trivial) (fun _ _ _ => trivial) ?_
  · exact wp_mono (hms m (List.mem_of_getElem? hm) s) (fun _ _ _ => trivial) fun _ _ hfatal => ⟨hfatal, trivial⟩
  · rintro stop s' (⟨hfatal, -⟩ | ⟨-, hfails, -⟩ | ⟨-, i, hfails, -⟩)
    · exact hfatal
    · exact absurd h hfails
    · exact absurd h hfails.not_spared

end

end Chanserv
