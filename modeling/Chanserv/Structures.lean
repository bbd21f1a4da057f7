import Chanserv.Text.Number

/-! The data of the bot: dialog steps, the task being filled in, a user's session. -/
namespace Chanserv

/-! ### Dialog steps, the values of `NewTask.stat` -/

@[match_pattern] abbrev developerSendMsgAsBot : Nat := 201
@[match_pattern] abbrev developerSendMsgToGpt : Nat := 202
@[match_pattern] abbrev developerRunHostCommand : Nat := 203

@[match_pattern] abbrev staffSetNewMsiVersion : Nat := 301
@[match_pattern] abbrev staffAddNewContractor : Nat := 302

@[match_pattern] abbrev taskSectionStep1 : Nat := 401
@[match_pattern] abbrev taskProjectStep2 : Nat := 402
@[match_pattern] abbrev taskSubjStep3 : Nat := 403
@[match_pattern] abbrev taskDescrStep4 : Nat := 404

@[match_pattern] abbrev familyUnitStep1 : Nat := 501
@[match_pattern] abbrev familyCategoryStep2 : Nat := 502
@[match_pattern] abbrev familyDescrStep3 : Nat := 503
@[match_pattern] abbrev familyProjectStep4 : Nat := 504

@[match_pattern] abbrev sharedFirstnameStep5 : Nat := 605
@[match_pattern] abbrev sharedSeparateTeklaFromBimStep6 : Nat := 606
@[match_pattern] abbrev sharedFinalStep7 : Nat := 607

@[match_pattern] abbrev revitMasterKeyReasonStep1 : Nat := 701
@[match_pattern] abbrev revitMasterKeyFirstnameStep2 : Nat := 702

/-- The task a dialog fills in. The defaults are those of `jira_task = {}`. -/
structure NewTask where
  teklaCardCaption : Text := []
  section_ : Text := []
  project : Text := []
  subj : Text := []
  category : Text := []
  description : Text := []
  /-- BIMTASK, FAMILY or TEKLA for a task; DEVELOPER or STAFF for a service step. -/
  type : Text := []
  consumerTgId : Int := 0
  consumerTgUsernameLink : Text := []
  consumerName : Text := []
  stat : Nat := 0
  idCard : Text := []
  creationDate : Text := []
  vDocuIds : List Text := []
  photoIDs : Text := []
  vLocalFilePaths : List Text := []
  /-- Why a master key is asked for; empty when no request is open. -/
  keyReason : Text := []
deriving DecidableEq, Repr

structure MostRecentMsgs where
  msQueryRowId : Int
  msgId : Int
deriving DecidableEq, Repr

structure Contractor where
  id : Int
  name : Text
  link : Text
  trelloList : Text
deriving DecidableEq, Repr

/-- A row of the issues table as it was shown to a contractor. -/
structure PgdbIssue where
  id : Int := 0
  sentMsgId : Int := 0
  sentChatId : Int := 0
  idCard : Text := []
  issueNum : Text := []
  unit : Text := []
  theme : Text := []
  project : Text := []
  photos : List Text := []
  fromWhom : Text := []
  category : Text := []
  description : Text := []
  creationDate : Text := []
  contractorList : Text := []
  contractorName : Text := []
  contractorLink : Text := []
deriving DecidableEq, Repr

/-- Everything the bot remembers about one user. Times are ticks of the steady clock. -/
structure UserDispatcher where
  chatUserTgId : Int
  chatUserTgName : Text
  chatUserFirstName : Text
  /-- The Trello card of the task being filed, empty if none was created. -/
  createdCardId : Text := []
  jiraTask : NewTask := {}
  lastError : Int := 0
  pgdbIssues : List PgdbIssue := []
  recentMsgs : List MostRecentMsgs := []
  clickedMsgId : Int := 0
  recentMsgIds : List Int := []
  lastActivity : Int := 0
deriving DecidableEq, Repr

end Chanserv
