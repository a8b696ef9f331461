import TxValidator.Shared

/-! What the validator reads.  Of a slot that passes the canonicity checks, the validator reads only
the fields that the slot's type and game use: two slots that agree on those get one verdict, the
same effects or the same rejection. -/

namespace TxValidator

open Checked

variable {P : Poseidon2Hash} {G G' : GameCore} {input input1 input2 : SlotInput}
  {random : Vector UInt64 4}

end TxValidator
