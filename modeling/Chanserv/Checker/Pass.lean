import Chanserv.Trello

/-! The list checker: one pass over the cards of all issues.

The checker is a process of its own. Every half minute it reads the ids of all
cards from the table of issues, asks Trello about one card after another, and
brings the rows of each card in line with the column it stands in. Statements
report failures by their result and throw nothing; an exception of a request or
a message ends the pass, and the process with it. -/
namespace Chanserv
open Text Program

/-- The answers to the calls made when a card is assigned. -/
structure AssignEnv where
  update : Bool
  commit : Bool
  selectConsumer : Bool
  customer : Int → Sending
  contractor : Int → Sending

/-- The answers to the calls made when a card is sent back to its customer. -/
structure ReworkEnv where
  selectCustomer : Bool
  customer : Int → Sending
  staff : Nat → Sending
  archive : Answer Unit
  delete : Bool
  commit : Bool
  /-- How far the pass gets before each message of the notice to staff. -/
  ahead : Nat → Nat := fun _ => 0

/-- The answers to the calls made for one card. -/
structure CardEnv where
  getCard : Answer CurlReply
  updateList : Bool
  selectLists : Bool
  clear : Bool
  selectStatus : Bool
  assign : AssignEnv
  rework : ReworkEnv
  deleteMissing : Bool
  commit : Bool

/-- The answers to the calls made in one pass. -/
structure PassEnv where
  selectIds : Bool
  /-- The errors the database reports. -/
  errors : Text
  uptimeMinutes : Int
  notice : Sending
  card : Nat → CardEnv
  deleteClosed : Nat → Bool
  commit : Bool

/-- What the process keeps in memory, and what its parts share. -/
structure Checker where
  vIdCards : List Text := []
  vCardsToDelete : List Text := []
  sh : Shared := {}

abbrev CheckerM := EStateM Stop Checker

section
variable {α : Type}

/-- Part of a pass that leaves the two lists alone. -/
def serviceChecker (m : ServiceM α) : CheckerM α := zoom Checker.sh (fun sh c => {c with sh}) m

/-- The first row of a card, if the SELECT succeeds and there is one. -/
def selectOfCard (cardId : Text) (ok : Bool) : ServiceM (Option IssueRow) := do
  let rows ← select (.returns ok) fun db => (db.selectIssue cardId).toList
  pure rows.head?

/-- A column of the row read: the empty text without one. -/
def column (row : Option IssueRow) (f : IssueRow → Text) : Text := (row.map f).getD []

end

/-! ### What the statements write -/

def IssueRow.assigned (c : Contractor) (row : IssueRow) : IssueRow :=
  { row with
    cardStatus := of "underway"
    contractorList := c.trelloList
    contractorLink := c.link
    contractorId := itoa c.id
    contractorName := c.name }

def IssueRow.cleared (row : IssueRow) : IssueRow :=
  { row with
    cardStatus := of "pending"
    contractorList := []
    contractorLink := []
    contractorId := []
    contractorName := [] }

def IssueRow.listed (listId : Text) (row : IssueRow) : IssueRow := {row with idCardList := listId}

/-! ### One card -/

section
variable (cfg : Config)

/-- `assign_contractor_to_card`. -/
def assignContractorToCard (cardId : Text) (c : Contractor) (env : AssignEnv) : ServiceM Unit := do
  let ok ← sql (.updateIssue cardId) (.returns env.update) fun db =>
    db.updateIssues cardId (IssueRow.assigned c)
  guarded ok do
    let _ ← call .commit (.returns env.commit)
    let row ← selectOfCard cardId env.selectConsumer
    let consumer := toULong (column row IssueRow.consumerId)
    let _ ← call (.sendMessage (.user consumer) (of "Вашу задачу выполнит " ++ c.name ++ of "!\n")
      (.contactContractor (of "https://t.me/" ++ c.link))) (env.customer consumer)
    let _ ← call (.sendMessage (.user c.id)
      (of "❗️❗️❗️ \nУ вас появилась новая задача - проверьте свои задачи")) (env.contractor c.id)

/-- `rework_card_and_notify`: the results of the archiving and of the DELETE are not looked at. The keyboard of
the notice is made in `bootstrap`, which nobody calls. -/
def reworkCardAndNotify (cardId : Text) (env : ReworkEnv) : ServiceM Unit := do
  let row ← selectOfCard cardId env.selectCustomer
  let customer := toULong (column row IssueRow.consumerId)
  let _ ← call (.sendMessage (.user customer)
    (of "Извините, но наши специалисты вас не поняли.\nСформулируйсте вопрос подробнее и создайте новую задачу"))
    (env.customer customer)
  besideThread env.ahead (noticesToStaff cfg (of "Уведомление 'Cоздайте новую задачу' юзеру " ++
      column row IssueRow.consumerName ++ of " по задаче " ++ column row IssueRow.theme ++
      of " отправлено") .none env.staff)
    [ archivingCard cardId env.archive,
      do let _ ← deleteIssueFromDb cardId (.returns env.delete),
      do let _ ← call .commit (.returns env.commit) ]

/-- `sync_distributed_card`: a card back in the first column loses its contractor. The column
recorded for the card is returned. -/
def syncDistributedCard (cardId : Text) (env : CardEnv) : ServiceM Text := do
  let row ← selectOfCard cardId env.selectLists
  let dbCardListId := column row IssueRow.idCardList
  let dbContractorList := column row IssueRow.contractorList
  guarded (dbCardListId = cfg.distributionList ∧ dbContractorList ≠ []) do
    let _ ← sql (.updateIssue cardId) (.returns env.clear) fun db =>
      db.updateIssues cardId IssueRow.cleared
  pure dbCardListId

/-- The contractor whose column a card is in. -/
def ownerOf (contractors : List Contractor) (listId : Text) : Option Contractor :=
  contractors.find? fun c => c.trelloList = listId

/-- `sync_n_manage_contractors_and_cards`. -/
def syncNManageContractorsAndCards (cardId trelloCardListId : Text) (env : CardEnv) : ServiceM Unit := do
  let dbCardListId ← syncDistributedCard cfg cardId env
  let row ← selectOfCard cardId env.selectStatus
  guarded (column row IssueRow.cardStatus = of "pending") do
    let s ← get
    (ownerOf s.vContractors trelloCardListId).elim (pure ()) fun c =>
      assignContractorToCard cardId c env.assign
    guarded (dbCardListId = cfg.reworkList) (reworkCardAndNotify cfg cardId env.rework)

/-- What Trello's answer about a card leads to. -/
def answerCard (cardId : Text) (env : CardEnv) : Except TrelloError JiraCard → CheckerM Unit
  | .ok card => do
    guarded card.isClosed (modify fun c => {c with vCardsToDelete := c.vCardsToDelete ++ [cardId]})
    serviceChecker do
      let _ ← sql (.updateIssue card.id) (.returns env.updateList) fun db =>
        db.updateIssues card.id (IssueRow.listed card.idList)
      syncNManageContractorsAndCards cfg card.id card.idList env
  | .error .notFound404 =>
    serviceChecker do
      let _ ← deleteIssueFromDb cardId (.returns env.deleteMissing)
  | .error _ => pure ()

/-- One round of `process_every_card`. -/
def processCard (cardId : Text) (env : CardEnv) : CheckerM Unit := do
  let trelloCard ← serviceChecker (getCard cardId env.getCard)
  answerCard cfg cardId env trelloCard
  let _ ← serviceChecker (call .commit (.returns env.commit))

/-! ### A pass -/

/-- `checks_bootstrap`: whether there are cards to look at. Rows marked 1 have no card. -/
def checksBootstrap (env : PassEnv) : CheckerM Bool := do
  modify fun c => {c with vIdCards := []}
  let ids ← serviceChecker (select (.returns env.selectIds) fun db => db.issues.map IssueRow.idCard)
  modify fun c => {c with vIdCards := ids.filter fun id => id ≠ of "1"}
  let c ← get
  if c.vIdCards = [] then do
    guarded (29 < env.uptimeMinutes ∧ env.uptimeMinutes % 30 = 0) <| serviceChecker do
      let _ ← call (.sendMessage (.named cfg.supportTgId) (of "ListChecker's uptime is " ++
        itoa env.uptimeMinutes ++ of "min: Запрос задач из БД вернул пустой результат. " ++ env.errors))
        env.notice
    pure false
  else pure true

def processEveryCard (env : PassEnv) : CheckerM Unit := do
  let c ← get
  forEach c.vIdCards.zipIdx fun (cardId, i) => processCard cfg cardId (env.card i)

/-- `delete_cards`: the closed cards collected so far. -/
def deleteCards (env : PassEnv) : CheckerM Unit := do
  let c ← get
  serviceChecker <| forEach c.vCardsToDelete.zipIdx fun (cardId, i) => do
    let _ ← deleteIssueFromDb cardId (.returns (env.deleteClosed i))
  modify fun c => {c with vCardsToDelete := []}
  let _ ← serviceChecker (call .commit (.returns env.commit))

/-- `check_the_list`. -/
def checkTheList (env : PassEnv) : CheckerM Unit := do
  let some_ ← checksBootstrap cfg env
  guarded some_ do
    processEveryCard cfg env
    deleteCards env

end

/-! ### Passes in which all goes well -/

/-- The answers to the calls for one card when none fails. -/
def CardEnv.calm (getCard : Answer CurlReply) : CardEnv where
  getCard
  updateList := true
  selectLists := true
  clear := true
  selectStatus := true
  assign :=
    { update := true, commit := true, selectConsumer := true
      customer := fun _ => .returns ⟨0, 0⟩, contractor := fun _ => .returns ⟨0, 0⟩ }
  rework :=
    { selectCustomer := true, customer := fun _ => .returns ⟨0, 0⟩, staff := fun _ => .returns ⟨0, 0⟩
      archive := .returns (), delete := true, commit := true }
  deleteMissing := true
  commit := true

def PassEnv.calm (getCard : Nat → Answer CurlReply) : PassEnv where
  selectIds := true
  errors := []
  uptimeMinutes := 0
  notice := .returns ⟨0, 0⟩
  card i := .calm (getCard i)
  deleteClosed _ := true
  commit := true

end Chanserv
