import Chanserv.Json.Parser
import Chanserv.Outside
import Chanserv.Support

/-! Trello: creating, reading, colouring and archiving cards. -/
namespace Chanserv
open Text Program

/-- What curl brings back for a request. -/
inductive CurlReply where
  | noHandle
  | failed
  /-- The status, and the body when it is a JSON document. -/
  | answered (status : Nat) (body : Option Json.Value)

inductive TrelloError where
  | unknown | requestFailed | requestInvalid | notFound404
deriving DecidableEq, Repr

def isSuccess (status : Nat) : Bool := 200 ≤ status && status < 300

structure JiraCard where
  id : Text
  isClosed : Bool
  idList : Text
  name : Text
deriving DecidableEq, Repr

def throwStd {α : Type} : ServiceM α := throw (.throws .stdException)

/-- The text of a member; `at` and `value_to` throw without one. -/
def textAt (v : Json.Value) (key : Text) : ServiceM Text :=
  match (v.at key).bind Json.Value.toText with
  | some t => pure t
  | none => throwStd

def boolAt (v : Json.Value) (key : Text) : ServiceM Bool :=
  match (v.at key).bind Json.Value.toBool with
  | some b => pure b
  | none => throwStd

/-! ### Creating a card -/

/-- One text of the body: escaped, then every brace preceded by two backslashes. -/
def cardText (t : Text) : Text := replaceBraces (escapeString t)

def cardBody (cardName cardDescription : Text) : Text :=
  of " \x7b \"name\":\"" ++ cardText cardName ++ of "\", \"desc\": \"" ++ cardText cardDescription ++
    of "\" \x7d "

/-- The id of the new card. -/
def createNewCard (listId cardName cardDescription : Text) (r : Answer CurlReply) :
    ServiceM (Except TrelloError Text) := do
  let reply ← call (.createNewCard listId (cardBody cardName cardDescription)) r
  match reply with
  | .noHandle => pure (.error .unknown)
  | .failed => pure (.error .requestFailed)
  | .answered status body =>
    if !isSuccess status then pure (.error .requestFailed)
    else match body with
      | none => pure (.error .requestInvalid)
      | some v => do
        let id ← textAt v (of "id")
        pure (.ok id)

/-- What an answer means for the caller. -/
def cardOutcome : Answer CurlReply → Answer (Except TrelloError Text)
  | .throws e => .throws e
  | .returns .noHandle => .returns (.error .unknown)
  | .returns .failed => .returns (.error .requestFailed)
  | .returns (.answered status body) =>
    if !isSuccess status then .returns (.error .requestFailed)
    else match body with
      | none => .returns (.error .requestInvalid)
      | some v =>
        match (v.at (of "id")).bind Json.Value.toText with
        | none => .throws .stdException
        | some id => .returns (.ok id)

/-- The creation of a card is one call. -/
theorem createNewCard_eq (listId cardName cardDescription : Text) (r : Answer CurlReply) :
    createNewCard listId cardName cardDescription r =
      call (.createNewCard listId (cardBody cardName cardDescription)) (cardOutcome r) := by
  cases r with
  | throws e => rfl
  | returns reply =>
    cases reply with
    | answered status body =>
      cases hs : isSuccess status with
      | false => simp [createNewCard, cardOutcome, call, hs]
      | true =>
        cases body with
        | none => simp [createNewCard, cardOutcome, call, hs]
        | some v =>
          cases hv : (v.at (of "id")).bind Json.Value.toText with
          | none =>
            simp [createNewCard, cardOutcome, call, textAt, throwStd, hs, hv]
            rfl
          | some id => simp [createNewCard, cardOutcome, call, textAt, hs, hv]
    | _ => rfl

/-- The result code is not looked at by any caller. -/
def addImgToCard (card path : Text) (r : Answer Unit) : ServiceM Unit := call (.addImgToCard card path) r

def changeCardColor (card color : Text) (r : Answer Unit) : ServiceM Unit :=
  call (.changeCardColor card color) r

def archivingCard (card : Text) (r : Answer Unit) : ServiceM Unit := call (.archivingCard card) r

/-! ### Reading a card -/

def getCard (cardId : Text) (r : Answer CurlReply) : ServiceM (Except TrelloError JiraCard) := do
  let reply ← call (.getCard cardId) r
  match reply with
  | .noHandle => pure (.error .unknown)
  | .failed => pure (.error .requestFailed)
  | .answered status body =>
    if status = 404 then pure (.error .notFound404)
    else if !isSuccess status then pure (.error .requestFailed)
    else match body with
      | none => pure (.error .requestInvalid)
      | some v => do
        -- A missing name is caught, a missing `closed` or `idList` is not.
        let name := match (v.at (of "name")).bind Json.Value.toText with
          | some name => truncateMsgFromUser (stripLineBreaks name) 55
          | none => []
        let isClosed ← boolAt v (of "closed")
        let idList ← textAt v (of "idList")
        pure (.ok { id := cardId, isClosed, idList, name })

/-- The card a document describes. A missing name is caught, a missing `closed` or `idList` is not. -/
def cardOf (cardId : Text) (v : Json.Value) : Answer (Except TrelloError JiraCard) :=
  match (v.at (of "closed")).bind Json.Value.toBool, (v.at (of "idList")).bind Json.Value.toText with
  | some isClosed, some idList =>
    let name := match (v.at (of "name")).bind Json.Value.toText with
      | some name => truncateMsgFromUser (stripLineBreaks name) 55
      | none => []
    .returns (.ok { id := cardId, isClosed, idList, name })
  | _, _ => .throws .stdException

/-- What an answer about a card means for the caller. -/
def cardRead (cardId : Text) : Answer CurlReply → Answer (Except TrelloError JiraCard)
  | .throws e => .throws e
  | .returns .noHandle => .returns (.error .unknown)
  | .returns .failed => .returns (.error .requestFailed)
  | .returns (.answered status body) =>
    if status = 404 then .returns (.error .notFound404)
    else if !isSuccess status then .returns (.error .requestFailed)
    else match body with
      | none => .returns (.error .requestInvalid)
      | some v => cardOf cardId v

/-- The request for a card is one call. -/
theorem getCard_eq (cardId : Text) (r : Answer CurlReply) :
    getCard cardId r = call (.getCard cardId) (cardRead cardId r) := by
  cases r with
  | throws e => rfl
  | returns reply =>
    cases reply with
    | answered status body =>
      by_cases hmissing : status = 404
      · simp [getCard, cardRead, call, hmissing]
      · cases hs : isSuccess status with
        | false => simp [getCard, cardRead, call, hmissing, hs]
        | true =>
          cases body with
          | none => simp [getCard, cardRead, call, hmissing, hs]
          | some v =>
            cases hclosed : (v.at (of "closed")).bind Json.Value.toBool with
            | none =>
              simp [getCard, cardRead, cardOf, call, boolAt, throwStd, hmissing, hs, hclosed]
              rfl
            | some isClosed =>
              cases hlist : (v.at (of "idList")).bind Json.Value.toText with
              | none =>
                simp [getCard, cardRead, cardOf, call, boolAt, textAt, throwStd, hmissing, hs, hclosed, hlist]
                rfl
              | some idList =>
                simp [getCard, cardRead, cardOf, call, boolAt, textAt, hmissing, hs, hclosed, hlist]
    | _ => rfl

theorem cardOf_id {cardId : Text} {v : Json.Value} {card : JiraCard}
    (h : cardOf cardId v = .returns (.ok card)) : card.id = cardId := by
  unfold cardOf at h
  split at h
  · cases h
    rfl
  · cases h

/-- A card read is the one asked for. -/
theorem cardRead_id {cardId : Text} {r : Answer CurlReply} {card : JiraCard}
    (h : cardRead cardId r = .returns (.ok card)) : card.id = cardId := by
  cases r with
  | throws e => cases h
  | returns reply =>
    cases reply with
    | answered status body =>
      simp only [cardRead] at h
      split at h
      · cases h
      · split at h
        · cases h
        · cases body with
          | none => cases h
          | some v => exact cardOf_id h
    | _ => cases h

end Chanserv
