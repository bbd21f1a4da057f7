import Chanserv.Structures

/-! The tables the bot and the list checker share.

Columns are texts, as in the schema; a column no statement has written yet is
empty, and reads as such. -/
namespace Chanserv

/-- A row of `issues` or of `tekla_issues`. -/
structure IssueRow where
  id : Int := 0
  consumerId : Text := []
  consumerName : Text := []
  consumerLink : Text := []
  section_ : Text := []
  category : Text := []
  theme : Text := []
  description : Text := []
  createdTime : Text := []
  idCard : Text := []
  cardStatus : Text := []
  idCardList : Text := []
  contractorList : Text := []
  contractorName : Text := []
  contractorId : Text := []
  contractorLink : Text := []
  photos : Text := []
  project : Text := []
deriving DecidableEq, Repr

inductive IssueTable where
  | issues | teklaIssues
deriving DecidableEq, Repr

structure MasterKeyRow where
  tgId : Text
  masterKey : Text
  requestedBy : Text
  requestedAt : Text
  reason : Text
  isActivated : Bool
deriving DecidableEq, Repr

structure ContractorRow where
  id : Text
  name : Text
  link : Text
  trelloList : Text
  email : Text
deriving DecidableEq, Repr

structure Db where
  issues : List IssueRow := []
  teklaIssues : List IssueRow := []
  contractors : List ContractorRow := []
  consumers : List (Int × Text) := []
  masterKeys : List MasterKeyRow := []
  msiActualVersion : Text := []
  /-- The next value of the identity column. -/
  nextIssueId : Int := 300
  /-- And of the sequence the other table draws on. -/
  nextTeklaIssueId : Int := 1

namespace Db

/-- INSERT: the row gets a number of its own. -/
def insertIssue (db : Db) (table : IssueTable) (row : IssueRow) : Db :=
  match table with
  | .issues =>
    {db with issues := db.issues ++ [{row with id := db.nextIssueId}], nextIssueId := db.nextIssueId + 1}
  | .teklaIssues =>
    { db with
      teklaIssues := db.teklaIssues ++ [{row with id := db.nextTeklaIssueId}]
      nextTeklaIssueId := db.nextTeklaIssueId + 1 }

/-- DELETE FROM issues WHERE idCard = ? -/
def deleteIssue (db : Db) (idCard : Text) : Db :=
  {db with issues := db.issues.filter fun r => r.idCard ≠ idCard}

/-- UPDATE issues SET ... WHERE idCard = ? -/
def updateIssues (db : Db) (idCard : Text) (f : IssueRow → IssueRow) : Db :=
  {db with issues := db.issues.map fun r => if r.idCard = idCard then f r else r}

/-- The first row of SELECT ... FROM issues WHERE idCard = ? -/
def selectIssue (db : Db) (idCard : Text) : Option IssueRow :=
  db.issues.find? fun r => r.idCard = idCard

end Db

end Chanserv
