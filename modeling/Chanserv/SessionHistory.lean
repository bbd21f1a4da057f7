import Chanserv.Program.Expiry
import Chanserv.SessionStore
import Mathlib.Data.Finset.Card

/-! The session store over its whole history.

Looking a session up prolongs its life, and creating one looks it up first. What
is in the store after any calls, at any times and in any order, is told by the
calls alone. -/
namespace Chanserv
open Text Program

/-- A call to the store. -/
inductive StoreOp where
  | find (id now : Int)
  | create (id : Int) (tgName firstName : Text) (now : Int)
  | evictIdle (now ttl : Int)
deriving DecidableEq

namespace StoreOp

/-- What the call is for the lifetimes of sessions. -/
def use : StoreOp → Use Int Int
  | find id now => .used id now
  | create id _ _ now => .opened id now
  | evictIdle now ttl => .swept now ttl

def apply (s : SessionStore) : StoreOp → SessionStore
  | find id now => (s.find id now).2
  | create id tgName firstName now => (s.create id tgName firstName now).2
  | evictIdle now ttl => (s.evictIdle now ttl).2

end StoreOp

/-- A call that is about an id, as evictions are about all. -/
def StoreOp.concerns (id : Int) : StoreOp → Bool
  | find k _ | create k _ _ _ => k = id
  | evictIdle _ _ => true

/-- The store after calls to an empty one. -/
def storeAfter (ops : List StoreOp) : SessionStore := ops.foldl StoreOp.apply .empty

theorem storeAfter_concat (ops : List StoreOp) (op : StoreOp) :
    storeAfter (ops ++ [op]) = op.apply (storeAfter ops) := by
  rw [storeAfter, List.foldl_append]
  rfl

/-- The time last given for an id. -/
def lastActive (id now : Int) (ops : List StoreOp) : Int := lastTime id now (ops.map StoreOp.use)

namespace SessionStore
variable {s : SessionStore} {id b now ttl : Int} {u : UserDispatcher} {tgName firstName : Text}

/-- When a session was last active. -/
def activity (s : SessionStore) (id : Int) : Option Int := (s.session id).map UserDispatcher.lastActivity

theorem session_put (slot : Slot) : (s.put id slot).session id = some slot.session := by
  rw [session, lookup_put, Option.map_some]

theorem session_put_ne (h : b ≠ id) (slot : Slot) : (s.put id slot).session b = s.session b := by
  rw [session, lookup_put_ne h, session]

theorem find_present {slot : Slot} (h : s.lookup id = some slot) :
    (s.find id now).1 = some ⟨id, slot.address⟩ ∧
      (s.find id now).2.session id = some {slot.session with lastActivity := now} := by
  rw [find_of_lookup h]
  exact ⟨rfl, session_put _⟩

theorem session_find_ne (h : b ≠ id) : (s.find id now).2.session b = s.session b := by
  cases hslot : s.lookup id with
  | none => rw [find_of_none hslot]
  | some slot =>
    rw [find_of_lookup hslot]
    exact session_put_ne h _

theorem create_present {slot : Slot} (h : s.lookup id = some slot) :
    s.create id tgName firstName now = (⟨id, slot.address⟩, (s.find id now).2) := by
  rw [create, find_of_lookup h]

theorem session_create_absent (h : s.lookup id = none) :
    (s.create id tgName firstName now).2.session id = some
      { chatUserTgId := id, chatUserTgName := tgName, chatUserFirstName := firstName, lastActivity := now } := by
  rw [create, find_of_none h]
  exact congrArg (Option.map Slot.session) (AList.lookup_insert s.mSessions)

theorem session_create_ne (h : b ≠ id) : (s.create id tgName firstName now).2.session b = s.session b :=
  congrArg (Option.map Slot.session) (lookup_create_ne h tgName firstName now)

theorem session_eq_none : s.session id = none ↔ s.lookup id = none := by
  rw [session, Option.map_eq_none_iff]

/-- A call changes the life of each session as its use does. -/
theorem activity_apply (s : SessionStore) (op : StoreOp) (id : Int) :
    (op.apply s).activity id = op.use.next id (s.activity id) := by
  cases op with
  | find k now =>
    show (s.find k now).2.activity id = if k = id then (s.activity id).map fun _ => now else s.activity id
    by_cases hk : k = id
    · subst hk
      rw [if_pos rfl]
      cases hslot : s.lookup k with
      | none =>
        rw [find_of_none hslot]
        simp [activity, session, hslot]
      | some slot =>
        rw [activity, (find_present hslot).2]
        simp [activity, session, hslot]
    · rw [if_neg hk, activity, session_find_ne (Ne.symm hk), activity]
  | create k tgName firstName now =>
    show (s.create k tgName firstName now).2.activity id = if k = id then some now else s.activity id
    by_cases hk : k = id
    · subst hk
      rw [if_pos rfl]
      cases hslot : s.lookup k with
      | none => rw [activity, session_create_absent hslot, Option.map_some]
      | some slot => rw [create_present hslot, activity, (find_present hslot).2, Option.map_some]
    · rw [if_neg hk, activity, session_create_ne (Ne.symm hk), activity]
  | evictIdle now ttl =>
    show (s.evictIdle now ttl).2.activity id = (s.activity id).filter fun t => now - t ≤ ttl
    rw [activity, session_evictIdle, activity]
    cases s.session id with
    | none => rfl
    | some u =>
      rw [Option.filter_some, Option.map_some, Option.filter_some, idle]
      by_cases hidle : now - u.lastActivity ≤ ttl
      · simp [hidle]
      · simp [hidle]

theorem activity_storeAfter (ops : List StoreOp) (id : Int) :
    (storeAfter ops).activity id = lastUse id (ops.map StoreOp.use) := by
  induction ops using List.reverseRecOn with
  | nil => rfl
  | append_singleton ops op ih =>
    rw [storeAfter_concat, List.map_append, List.map_singleton, lastUse_concat, ← ih]
    exact activity_apply (storeAfter ops) op id

/-! ### One session and the others -/

theorem session_apply_other (s : SessionStore) {op : StoreOp} (h : op.concerns id = false) :
    (op.apply s).session id = s.session id := by
  cases op with
  | find k now => exact session_find_ne (Ne.symm (of_decide_eq_false h))
  | create k tgName firstName now => exact session_create_ne (Ne.symm (of_decide_eq_false h))
  | evictIdle now ttl => cases h

/-- What a call makes of a session depends on no other. -/
theorem session_apply_congr {s s' : SessionStore} (h : s.session id = s'.session id) (op : StoreOp) :
    (op.apply s).session id = (op.apply s').session id := by
  cases hop : op.concerns id with
  | false => rw [session_apply_other s hop, session_apply_other s' hop, h]
  | true =>
    cases op with
    | evictIdle now ttl =>
      show (s.evictIdle now ttl).2.session id = (s'.evictIdle now ttl).2.session id
      rw [session_evictIdle, session_evictIdle, h]
    | find k now =>
      obtain rfl : k = id := of_decide_eq_true hop
      show (s.find k now).2.session k = (s'.find k now).2.session k
      cases hs : s.session k with
      | none =>
        rw [find_of_none (session_eq_none.mp hs), find_of_none (session_eq_none.mp (h.symm.trans hs)), h]
      | some u =>
        obtain ⟨slot, hslot, rfl⟩ := Option.map_eq_some_iff.mp hs
        obtain ⟨slot', hslot', hsame⟩ := Option.map_eq_some_iff.mp (h.symm.trans hs)
        rw [(find_present hslot).2, (find_present hslot').2, hsame]
    | create k tgName firstName now =>
      obtain rfl : k = id := of_decide_eq_true hop
      show (s.create k tgName firstName now).2.session k = (s'.create k tgName firstName now).2.session k
      cases hs : s.session k with
      | none =>
        rw [session_create_absent (session_eq_none.mp hs),
          session_create_absent (session_eq_none.mp (h.symm.trans hs))]
      | some u =>
        obtain ⟨slot, hslot, rfl⟩ := Option.map_eq_some_iff.mp hs
        obtain ⟨slot', hslot', hsame⟩ := Option.map_eq_some_iff.mp (h.symm.trans hs)
        rw [create_present hslot, create_present hslot', (find_present hslot).2, (find_present hslot').2, hsame]

theorem session_storeAfter_concerns (ops : List StoreOp) (id : Int) :
    (storeAfter ops).session id = (storeAfter (ops.filter (StoreOp.concerns id))).session id := by
  induction ops using List.reverseRecOn with
  | nil => rfl
  | append_singleton ops op ih =>
    rw [storeAfter_concat, List.filter_append]
    cases hop : op.concerns id with
    | false =>
      rw [session_apply_other _ hop, ih, List.filter_cons_of_neg (by rw [hop]; exact Bool.false_ne_true),
        List.filter_nil, List.append_nil]
    | true =>
      rw [List.filter_cons_of_pos hop, List.filter_nil, storeAfter_concat]
      exact session_apply_congr ih op

/-! ### How many sessions there are -/

/-- The ids with a session. -/
def ids (s : SessionStore) : Finset Int := s.mSessions.keys.toFinset

theorem mem_ids : id ∈ s.ids ↔ (s.session id).isSome := by
  rw [ids, List.mem_toFinset, session, Option.isSome_map, lookup, AList.lookup_isSome]
  exact Iff.rfl

theorem card_ids (s : SessionStore) : s.ids.card = s.size := by
  rw [ids, List.toFinset_card_of_nodup s.mSessions.keys_nodup, size, AList.keys, List.keys, List.length_map]

theorem evictIdle_count (s : SessionStore) (now ttl : Int) :
    (s.evictIdle now ttl).1 = (s.ids \ (s.evictIdle now ttl).2.ids).card := by
  have hsub : (s.evictIdle now ttl).2.ids ⊆ s.ids := by
    intro id hid
    rw [mem_ids, session_evictIdle] at hid
    rw [mem_ids]
    obtain ⟨u, hu⟩ := Option.isSome_iff_exists.mp hid
    rw [(Option.filter_eq_some_iff.mp hu).1]
    rfl
  rw [Finset.card_sdiff_of_subset hsub, card_ids, card_ids]
  rfl

end SessionStore

/-- There is a session when it was created and no eviction since found it idle. -/
theorem session_isSome_iff (ops : List StoreOp) (id : Int) :
    ((storeAfter ops).session id).isSome ↔
      ∃ before tgName firstName t after, ops = before ++ .create id tgName firstName t :: after ∧
        ∀ mid now ttl rest, after = mid ++ .evictIdle now ttl :: rest → now - lastActive id t mid ≤ ttl := by
  have hkept (t : Int) (after : List StoreOp) : Kept id t (after.map StoreOp.use) ↔
      ∀ mid now ttl rest, after = mid ++ .evictIdle now ttl :: rest → now - lastActive id t mid ≤ ttl := by
    constructor
    · rintro h mid now ttl rest rfl
      exact h (mid.map StoreOp.use) now ttl (rest.map StoreOp.use) (by rw [List.map_append, List.map_cons]; rfl)
    · intro h before now ttl later hl
      obtain ⟨mid, more, rfl, rfl, hmore⟩ := List.map_eq_append_iff.mp hl
      obtain ⟨op, rest, rfl, hop, rfl⟩ := List.map_eq_cons_iff.mp hmore
      cases op with
      | evictIdle now' ttl' =>
        cases hop
        exact h mid now ttl rest rfl
      | _ => cases hop
  have hpresent : ((storeAfter ops).session id).isSome ↔ ∃ last, lastUse id (ops.map StoreOp.use) = some last := by
    rw [← SessionStore.activity_storeAfter, ← Option.isSome_iff_exists, SessionStore.activity, Option.isSome_map]
  rw [hpresent]
  constructor
  · rintro ⟨last, hlast⟩
    obtain ⟨before, t, after, hops, hk, -⟩ := lastUse_eq_some_iff.mp hlast
    obtain ⟨pre, more, rfl, rfl, hmore⟩ := List.map_eq_append_iff.mp hops
    obtain ⟨op, post, rfl, hop, rfl⟩ := List.map_eq_cons_iff.mp hmore
    cases op with
    | create k tgName firstName now =>
      cases hop
      exact ⟨pre, tgName, firstName, t, post, rfl, (hkept t post).mp hk⟩
    | _ => cases hop
  · rintro ⟨pre, tgName, firstName, t, post, rfl, hk⟩
    refine ⟨_, lastUse_eq_some_iff.mpr ⟨pre.map StoreOp.use, t, post.map StoreOp.use, ?_, (hkept t post).mpr hk, rfl⟩⟩
    rw [List.map_append, List.map_cons]
    rfl

/-- After any calls, at any times: who has a session is told by the calls alone, and so is what each
function answers and does. -/
theorem session_lifetime (ops : List StoreOp) (id : Int) :
    (((storeAfter ops).session id).isSome ↔
      ∃ before tgName firstName t after, ops = before ++ .create id tgName firstName t :: after ∧
        ∀ mid now ttl rest, after = mid ++ .evictIdle now ttl :: rest → now - lastActive id t mid ≤ ttl) ∧
    (∀ now, ((storeAfter ops).find id now).1 = none ↔ (storeAfter ops).session id = none) ∧
    (∀ u tgName firstName now, (storeAfter ops).session id = some u →
      ∃ p, ((storeAfter ops).find id now).1 = some p ∧ (storeAfter ops).deref p = some u ∧
        ((storeAfter ops).create id tgName firstName now).1 = p ∧
        ((storeAfter ops).create id tgName firstName now).2.deref p = some {u with lastActivity := now}) ∧
    (∀ now ttl, ((storeAfter ops).evictIdle now ttl).1 =
      ((storeAfter ops).ids \ ((storeAfter ops).evictIdle now ttl).2.ids).card) ∧
    (id ∈ (storeAfter ops).ids ↔ ((storeAfter ops).session id).isSome) ∧
    (storeAfter ops).size = (storeAfter ops).ids.card ∧
    (storeAfter ops).session id = (storeAfter (ops.filter (StoreOp.concerns id))).session id := by
  refine ⟨session_isSome_iff ops id, fun now => ?_, fun u tgName firstName now hu => ?_,
    SessionStore.evictIdle_count _, SessionStore.mem_ids, (SessionStore.card_ids _).symm,
    SessionStore.session_storeAfter_concerns ops id⟩
  · rw [SessionStore.session_eq_none]
    cases hslot : (storeAfter ops).lookup id with
    | none => simp [SessionStore.find_of_none hslot]
    | some slot => simp [(SessionStore.find_present hslot).1]
  · obtain ⟨slot, hslot, rfl⟩ := Option.map_eq_some_iff.mp hu
    refine ⟨⟨id, slot.address⟩, (SessionStore.find_present hslot).1, SessionStore.deref_of_lookup hslot, ?_, ?_⟩
    · rw [SessionStore.create_present hslot]
    · rw [SessionStore.create_present hslot, SessionStore.find_of_lookup hslot]
      exact SessionStore.deref_of_lookup (SessionStore.lookup_put _)

end Chanserv
