import TxValidator.Lib.Checked
import TxValidator.Lib.Verdict
import TxValidator.Lib.Run
import TxValidator.Lib.Pointwise
import TxValidator.Lib.Trace
import TxValidator.Lib.MerkleTree
import TxValidator.Field
import TxValidator.Slot
import TxValidator.Hash
import TxValidator.Balance
import TxValidator.Identity
import TxValidator.Fairness
import TxValidator.Validate
import TxValidator.Ledger
import TxValidator.Refinement
import TxValidator.Table
import TxValidator.Conservation
import TxValidator.Nonce
import TxValidator.Allowance
import TxValidator.Credit
import TxValidator.Keys
import TxValidator.Address
import TxValidator.Shared
import TxValidator.Overflow
import TxValidator.Commute
import TxValidator.Accounts
import TxValidator.Binding
import TxValidator.Chain
import TxValidator.Book
import TxValidator.Custody
import TxValidator.Liquidity
import TxValidator.Footprint
import TxValidator.Rejection
import TxValidator.Closure
import TxValidator.Padding
import TxValidator.Prediction
import TxValidator.Seed
import TxValidator.Settlement
import TxValidator.Commitments
import TxValidator.Keno
import TxValidator.Entries
import TxValidator.Rounds
import TxValidator.Authority
import TxValidator.History
import TxValidator.Execution
import TxValidator.Safety
