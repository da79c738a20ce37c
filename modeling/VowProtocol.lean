import VowProtocol.Library.MachineInt
import VowProtocol.Library.AccountMap
import VowProtocol.Library.Transition
import VowProtocol.Library.Component
import VowProtocol.Library.Fallible
import VowProtocol.Library.ShareLedger
import VowProtocol.Library.ProRata
import VowProtocol.Library.SpendMeter
import VowProtocol.Library.SplitDeposit
import VowProtocol.Library.PledgeBook
import VowProtocol.Library.FixedArray
import VowProtocol.Library.Balances
import VowProtocol.Library.Slot
import VowProtocol.Library.Commute
import VowProtocol.Library.ByteLayout
import VowProtocol.State.Accounts
import VowProtocol.State.World
import VowProtocol.State.Seeds
import VowProtocol.Program.Harvest
import VowProtocol.Program.Stake
import VowProtocol.Program.Session
import VowProtocol.Program.Treasury
import VowProtocol.Program.Pool
import VowProtocol.Program.Admin
import VowProtocol.Program.Instruction
import VowProtocol.Program.Events
import VowProtocol.Correctness.Settlement
import VowProtocol.Correctness.Handlers
import VowProtocol.Correctness.Frames
import VowProtocol.Correctness.Refinement
import VowProtocol.Correctness.Solvency
import VowProtocol.Correctness.Identity
import VowProtocol.Correctness.Payout
import VowProtocol.Correctness.Principal
import VowProtocol.Correctness.SessionLimits
import VowProtocol.Correctness.Authorization
import VowProtocol.Correctness.Lifecycle
import VowProtocol.Correctness.Phases
import VowProtocol.Correctness.Reputation
import VowProtocol.Correctness.Lock
import VowProtocol.Correctness.StakeDays
import VowProtocol.Correctness.Gains
import VowProtocol.Correctness.Residue
import VowProtocol.Correctness.Invalidation
import VowProtocol.Correctness.Exit
import VowProtocol.Correctness.Reharvest
import VowProtocol.Correctness.Accrual
import VowProtocol.Correctness.Registries
import VowProtocol.Correctness.Grants
import VowProtocol.Correctness.Whitelist
import VowProtocol.Correctness.Migration
import VowProtocol.Correctness.PriceReads
import VowProtocol.Correctness.RoundTrip
import VowProtocol.Correctness.Scores
import VowProtocol.Correctness.PositivePrice
import VowProtocol.Correctness.Withdrawals
import VowProtocol.Correctness.LamportFlows
import VowProtocol.Correctness.Replay
import VowProtocol.Correctness.SessionNonces
import VowProtocol.Correctness.Panics
import VowProtocol.Correctness.MintNumbers
import VowProtocol.Correctness.RecordHistory
import VowProtocol.Correctness.Pairing
import VowProtocol.Correctness.Profiles
import VowProtocol.Correctness.Poolless
import VowProtocol.Correctness.CrankOrder
import VowProtocol.Correctness.Addresses
import VowProtocol.Correctness.Consent
import VowProtocol.Correctness.FundingGap
import VowProtocol.Correctness.Policy
import VowProtocol.Correctness.OpenExit
import VowProtocol.Correctness.Exposure
import VowProtocol.Correctness.GainHistory
