import Chanserv.Support

/-! Where a text may be cut.

`truncate_msg_from_user` cuts in UTF-16 units. A cut between two characters leaves a
beginning of the text; a cut through a character of two units leaves half of it, which
is written as another character. -/
namespace Chanserv
open Text

section
variable {t : Text} {width : Nat}

end

end Chanserv
