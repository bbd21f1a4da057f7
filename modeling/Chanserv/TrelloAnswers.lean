import Chanserv.Trello

/-! What Trello may answer, and what `get_card` and `archiving_card` make of it. -/
namespace Chanserv
open Text Program

/-! ### Reading a card -/

/-- `get_card` logs a place of this literal. -/
def statusMessage : Text := of "HTTP Status Code: "

/-- The places it takes pointers to: the status is the index. -/
def statusOffsets : CurlReply → List Nat
  | .answered status _ => if status > 300 then [status] else []
  | _ => []

/-- The answers `get_card` is written for: a status up to 300, and in a document both members it
reads without a guard. -/
def CurlReply.Foreseen : CurlReply → Prop
  | .answered status body => status ≤ 300 ∧
    (isSuccess status = true → ∀ v, body = some v →
      (∃ isClosed, (v.at (of "closed")).bind Json.Value.toBool = some isClosed) ∧
        ∃ idList, (v.at (of "idList")).bind Json.Value.toText = some idList)
  | _ => True

section
variable {cardId : Text}

/-- An answer is understood or throws, whatever was done before. -/
theorem failure_getCard (reply : CurlReply) (s : Shared) :
    failure (getCard cardId (.returns reply)) s = none ↔ ∃ result, cardRead cardId (.returns reply) = .returns result := by
  rw [getCard_eq]
  cases hread : cardRead cardId (.returns reply) with
  | returns result => exact ⟨fun _ => ⟨result, rfl⟩, fun _ => rfl⟩
  | throws e =>
    constructor
    · intro h
      cases h
    · rintro ⟨_, h⟩
      cases h

theorem cardOf_returns_iff (v : Json.Value) :
    (∃ result, cardOf cardId v = .returns result) ↔
      (∃ isClosed, (v.at (of "closed")).bind Json.Value.toBool = some isClosed) ∧
        ∃ idList, (v.at (of "idList")).bind Json.Value.toText = some idList := by
  unfold cardOf
  cases (v.at (of "closed")).bind Json.Value.toBool with
  | none => simp
  | some isClosed =>
    cases (v.at (of "idList")).bind Json.Value.toText with
    | none => simp
    | some idList => simp

theorem statusOffsets_within_iff (status : Nat) (body : Option Json.Value) :
    (∀ offset ∈ statusOffsets (.answered status body), offset ≤ statusMessage.length) ↔ status ≤ 300 := by
  have hlength : statusMessage.length = 18 := by decide
  rw [statusOffsets]
  by_cases h : status > 300
  · rw [if_pos h, hlength]
    constructor
    · intro hall
      have hbound := hall status (List.mem_singleton_self _)
      omega
    · intro hle
      omega
  · rw [if_neg h]
    exact ⟨fun _ => by omega, fun _ _ hmem => absurd hmem List.not_mem_nil⟩

/-- `get_card` throws nothing and stays within its literal exactly for the answers it is written for. -/
theorem getCard_total_iff (cardId : Text) (reply : CurlReply) :
    (∀ s, failure (getCard cardId (.returns reply)) s = none) ∧
        (∀ offset ∈ statusOffsets reply, offset ≤ statusMessage.length) ↔ reply.Foreseen := by
  have hfailure : (∀ s, failure (getCard cardId (.returns reply)) s = none) ↔
      ∃ result, cardRead cardId (.returns reply) = .returns result := by
    constructor
    · exact fun h => (failure_getCard reply {}).mp (h {})
    · exact fun h s => (failure_getCard reply s).mpr h
  rw [hfailure]
  cases reply with
  | noHandle | failed => exact ⟨fun _ => trivial, fun _ => ⟨⟨_, rfl⟩, fun _ h => absurd h List.not_mem_nil⟩⟩
  | answered status body =>
    rw [statusOffsets_within_iff, and_comm, CurlReply.Foreseen]
    refine and_congr_right fun hstatus => ?_
    simp only [cardRead]
    rw [if_neg (by omega)]
    cases hsuccess : isSuccess status with
    | false => simp
    | true =>
      cases body with
      | none => simp
      | some v =>
        simp only [Bool.not_true, Bool.false_eq_true, if_false, forall_const, Option.some.injEq, forall_eq']
        exact cardOf_returns_iff v

/-- A card that is gone: the pointer is 386 characters past the literal. -/
theorem getCard_notFound : ¬∀ (cardId : Text) (reply : CurlReply),
    (∀ s, failure (getCard cardId (.returns reply)) s = none) ∧
      ∀ offset ∈ statusOffsets reply, offset ≤ statusMessage.length := by
  intro h
  have hoffset := (h [] (.answered 404 none)).2 404 (List.mem_singleton_self _)
  exact absurd hoffset (by decide)

/-- A card without the flag: the document is taken apart without a guard. -/
example : failure (getCard (of "c") (.returns (.answered 200 (some (.object [(of "name", .string (of "door"))]))))) {} =
    some (.throws .stdException) := by decide +kernel

end

/-! ### Archiving a card -/

/-- The code of `archiving_card`: 0 when Trello took the request. -/
def archivingCode : CurlReply → Int
  | .noHandle => 1
  | .failed => 2
  | .answered status body =>
    if !isSuccess status then 2
    else match body with
      | none => 3
      | some _ => 0

/-- `archiving_card` with its code. -/
def archiving (card : Text) (reply : CurlReply) : ServiceM Int := do
  let reply ← call (.archivingCard card) (.returns reply)
  pure (archivingCode reply)

/-- What the callers keep of an answer: nothing. -/
def codeDropped (_ : CurlReply) : Answer Unit := .returns ()

/-- They go on after any answer. -/
theorem archivingCard_eq (card : Text) (reply : CurlReply) :
    archivingCard card (codeDropped reply) = (do let _ ← archiving card reply) := rfl

end Chanserv
