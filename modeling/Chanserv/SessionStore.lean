import Chanserv.Structures
import Mathlib.Data.List.AList

/-! The sessions of the users active since the bot started.

`m_sessions` maps a Telegram id to the object holding its session. A pointer to
such an object names the id and the object's own address: objects are never
reused, so a pointer to a session that was evicted, and perhaps created again,
is not mistaken for one to the new object. Times are integers without bounds, not
the 64-bit counts of the clock. -/
namespace Chanserv

/-- A session object on the heap. -/
structure Slot where
  address : Nat
  session : UserDispatcher
deriving DecidableEq

/-- `user_dispatcher*`, when it is not null. -/
structure SessionPtr where
  tgId : Int
  address : Nat
deriving DecidableEq, Repr

structure SessionStore where
  mSessions : AList (fun _ : Int => Slot)
  /-- The next object's address. -/
  allocated : Nat

namespace SessionStore

def empty : SessionStore := ⟨∅, 0⟩

def lookup (s : SessionStore) (id : Int) : Option Slot := s.mSessions.lookup id

/-- The session of a user, if there is one. -/
def session (s : SessionStore) (id : Int) : Option UserDispatcher := (s.lookup id).map Slot.session

def put (s : SessionStore) (id : Int) (slot : Slot) : SessionStore :=
  ⟨s.mSessions.insert id slot, s.allocated⟩

/-- The session, marked active now; null without one. -/
def find (s : SessionStore) (id : Int) (now : Int) : Option SessionPtr × SessionStore :=
  match s.lookup id with
  | none => (none, s)
  | some slot =>
    (some ⟨id, slot.address⟩,
      s.put id {slot with session := {slot.session with lastActivity := now}})

/-- A session is created unless there is one. -/
def create (s : SessionStore) (id : Int) (tgName firstName : Text) (now : Int) :
    SessionPtr × SessionStore :=
  match s.find id now with
  | (some p, s) => (p, s)
  | (none, s) =>
    let session : UserDispatcher :=
      { chatUserTgId := id, chatUserTgName := tgName, chatUserFirstName := firstName,
        lastActivity := now }
    (⟨id, s.allocated⟩, ⟨s.mSessions.insert id ⟨s.allocated, session⟩, s.allocated + 1⟩)

/-- Idle longer than `ttl`. -/
def idle (now ttl : Int) (u : UserDispatcher) : Bool := now - u.lastActivity > ttl

/-- The sessions idle longer than `ttl` are removed; how many there were is returned. -/
def evictIdle (s : SessionStore) (now ttl : Int) : Nat × SessionStore :=
  let kept := s.mSessions.entries.filter fun e => !idle now ttl e.2.session
  (s.mSessions.entries.length - kept.length,
    ⟨⟨kept, s.mSessions.nodupKeys.sublist List.filter_sublist⟩, s.allocated⟩)

def size (s : SessionStore) : Nat := s.mSessions.entries.length

/-- The object behind a pointer; none for a dangling one. -/
def deref (s : SessionStore) (p : SessionPtr) : Option UserDispatcher :=
  match s.lookup p.tgId with
  | some slot => if slot.address = p.address then some slot.session else none
  | none => none

/-- Write the object behind a pointer. -/
def assign (s : SessionStore) (p : SessionPtr) (u : UserDispatcher) : SessionStore :=
  s.put p.tgId ⟨p.address, u⟩

/-! ### What is found where -/

variable {s : SessionStore} {id b : Int}

@[simp] theorem lookup_put (slot : Slot) : (s.put id slot).lookup id = some slot :=
  AList.lookup_insert s.mSessions

theorem lookup_put_ne (h : b ≠ id) (slot : Slot) : (s.put id slot).lookup b = s.lookup b :=
  AList.lookup_insert_ne h

theorem find_of_lookup {slot : Slot} (h : s.lookup id = some slot) (now : Int) :
    s.find id now = (some ⟨id, slot.address⟩,
      s.put id {slot with session := {slot.session with lastActivity := now}}) := by
  rw [find, h]

theorem find_of_none (h : s.lookup id = none) (now : Int) : s.find id now = (none, s) := by
  rw [find, h]

theorem deref_of_lookup {a : Nat} {u : UserDispatcher} (h : s.lookup id = some ⟨a, u⟩) :
    s.deref ⟨id, a⟩ = some u := by
  simp [deref, h]

/-- A user's session survives an eviction exactly when it was not idle. -/
theorem lookup_evictIdle (now ttl : Int) :
    (s.evictIdle now ttl).2.lookup id = (s.lookup id).filter fun slot => !idle now ttl slot.session := by
  apply Option.ext
  intro slot
  simp only [lookup, evictIdle, Option.filter_eq_some_iff]
  rw [← Option.mem_def, AList.mem_lookup_iff, ← Option.mem_def, AList.mem_lookup_iff]
  exact List.mem_filter

theorem lookup_create_ne (h : b ≠ id) (tgName firstName : Text) (now : Int) :
    (s.create id tgName firstName now).2.lookup b = s.lookup b := by
  cases hslot : s.lookup id with
  | none =>
    rw [create, find_of_none hslot]
    exact AList.lookup_insert_ne h
  | some slot =>
    rw [create, find_of_lookup hslot]
    exact lookup_put_ne h _

theorem session_evictIdle (s : SessionStore) (now ttl id : Int) :
    (s.evictIdle now ttl).2.session id = (s.session id).filter fun u => !idle now ttl u := by
  rw [session, lookup_evictIdle, session]
  cases s.lookup id with
  | none => rfl
  | some slot =>
    rw [Option.filter_some, Option.map_some, Option.filter_some]
    split <;> rfl

end SessionStore

end Chanserv
