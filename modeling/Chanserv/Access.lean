import Chanserv.Structures

/-! Who may do what.

The client chooses the callback data it sends, so the right to act is decided by
the data itself, and a second time by the dialog step a message arrives at. -/
namespace Chanserv
open Text

inductive RequiredRole where
  | anyone | staff | developer
deriving DecidableEq, Repr

/-- Data of an approve or a reject button. -/
def isApprove (data : Text) : Bool := (of "approve_key_request").isPrefixOf data
def isReject (data : Text) : Bool := (of "_reject_key_request").isPrefixOf data

def roleForCallback (data : Text) : RequiredRole :=
  if data = of "msg_as_bot" ∨ data = of "msg_to_gpt" ∨ data = of "run_command" ∨
      data = of "reboot_host" ∨ data = of "send_file" then
    .developer
  else if data = of "add_new_contractor" ∨ data = of "set_new_msi_version" ∨
      isApprove data ∨ isReject data then
    .staff
  else .anyone

/-- The role a dialog step is reserved for. -/
def roleForStep (stat : Nat) : RequiredRole :=
  if stat = developerSendMsgAsBot ∨ stat = developerSendMsgToGpt ∨
      stat = developerRunHostCommand then
    .developer
  else if stat = staffSetNewMsiVersion ∨ stat = staffAddNewContractor then .staff
  else .anyone

/-- The developer has the rights of staff as well. -/
def isAllowed (role : RequiredRole) (isStaff isDeveloper : Bool) : Bool :=
  match role with
  | .developer => isDeveloper
  | .staff => isStaff || isDeveloper
  | .anyone => true

example : roleForCallback (of "run_command_x") = .anyone := by decide

@[simp] theorem isAllowed_anyone (s d : Bool) : isAllowed .anyone s d = true := rfl

/-- Every step of the dialogs open to everyone is open to everyone. -/
theorem roleForStep_dialog {stat : Nat} (h : stat = 0 ∨ 401 ≤ stat) :
    roleForStep stat = .anyone := by
  simp only [roleForStep, developerSendMsgAsBot, developerSendMsgToGpt, developerRunHostCommand,
    staffSetNewMsiVersion, staffAddNewContractor]
  split
  · omega
  · split
    · omega
    · rfl

end Chanserv
