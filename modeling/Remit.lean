import Remit.Agent
import Remit.Agent.Client
import Remit.Agent.Keeping
import Remit.Agent.Mandates
import Remit.Calls
import Remit.Calls.Outcomes
import Remit.Calls.Signatures
import Remit.Calls.Signing
import Remit.Cluster
import Remit.Cluster.Busy
import Remit.Cluster.Coining
import Remit.Cluster.Issuing
import Remit.Cluster.Market
import Remit.Cluster.Quiet
import Remit.Coin.Accounts
import Remit.Coin.Allowances
import Remit.Coin.Approvals
import Remit.Coin.Calls
import Remit.Coin.Cluster
import Remit.Coin.Coining
import Remit.Coin.Hidden
import Remit.Coin.Holdings
import Remit.Coin.Kyc
import Remit.Coin.Mints
import Remit.Coin.Moves
import Remit.Coin.Notice
import Remit.Coin.Powers
import Remit.Coin.Program
import Remit.Coin.Public
import Remit.Coin.Reach
import Remit.Coin.Readings
import Remit.Coin.Sanctions
import Remit.Coin.Supply
import Remit.Compliance
import Remit.Compliance.Seizures
import Remit.Confidential
import Remit.Confidential.Applying
import Remit.Confidential.Audit
import Remit.Confidential.Balances
import Remit.Confidential.Bookkeeping
import Remit.Confidential.Conservation
import Remit.Confidential.Debits
import Remit.Confidential.Deposits
import Remit.Confidential.Execution
import Remit.Confidential.Fees
import Remit.Confidential.Ledger
import Remit.Confidential.Lockout
import Remit.Confidential.Payments
import Remit.Confidential.Replay
import Remit.Confidential.Synchrony
import Remit.Crypto
import Remit.Crypto.Transparent
import Remit.Custody
import Remit.Custody.Charging
import Remit.Custody.Dispatching
import Remit.Custody.Landing
import Remit.Custody.Sending
import Remit.Kyc
import Remit.Kyc.Calls
import Remit.Kyc.Clearances
import Remit.Kyc.Controls
import Remit.Library.Bisection
import Remit.Library.Codec
import Remit.Library.Flow
import Remit.Library.Overwrite
import Remit.Library.Packing
import Remit.Library.Purses
import Remit.Library.Runs
import Remit.Library.SmallScalar
import Remit.Library.Upsert
import Remit.Mint
import Remit.Mint.Sizing
import Remit.Probe
import Remit.Probe.Calls
import Remit.Probe.Guarding
import Remit.Probe.Separation
import Remit.Proofs
import Remit.Proofs.Assembly
import Remit.Proofs.Batches
import Remit.Proofs.Charges
import Remit.Proofs.Chunks
import Remit.Proofs.Cleanup
import Remit.Proofs.Composition
import Remit.Proofs.Consuming
import Remit.Proofs.Dispatch
import Remit.Proofs.ExactReading
import Remit.Proofs.Finishing
import Remit.Proofs.Ownership
import Remit.Proofs.Packets
import Remit.Proofs.Soundness
import Remit.Proofs.Staging
import Remit.Proofs.Stranding
import Remit.Proofs.Tracking
import Remit.Proofs.Transactions
import Remit.Proofs.WellFormed
import Remit.Solana.AccountFrames
import Remit.Solana.Accounts
import Remit.Solana.Address
import Remit.Solana.Derived
import Remit.Solana.Encoding
import Remit.Solana.Error
import Remit.Solana.Instruction
import Remit.Solana.Message
import Remit.Solana.Sizes
import Remit.State
import Remit.State.Decoding
import Remit.Token
import Remit.Token.Contract
import Remit.Token.Effects
import Remit.Token.Fees
import Remit.Token.Guard
import Remit.Token.Guarding
import Remit.Token.Harvest
import Remit.Token.Interface
import Remit.Token.Landing
import Remit.Token.Layout
import Remit.Token.Metadata
import Remit.Token.Program
import Remit.Token.Public
import Remit.Transfer
import Remit.Transfer.Collecting
import Remit.Transfer.StatedFees
