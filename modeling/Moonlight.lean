import Moonlight.Auth
import Moonlight.TransactSpec
import Moonlight.Payload
import Moonlight.Conservation
import Moonlight.Lifecycle
import Moonlight.Residual
import Moonlight.OwnerAuth
import Moonlight.Approval
import Moonlight.Solvency
import Moonlight.Conflicts
import Moonlight.Acceptance
import Moonlight.Settlement
import Moonlight.Ordering
import Moonlight.Exit
import Moonlight.AuthVerdict
import Moonlight.Governance
import Moonlight.Journal
import Moonlight.Reentrancy
import Moonlight.Paths
import Moonlight.Overflow
import Moonlight.InstanceLife
import Moonlight.EntryLife
import Moonlight.TokenAccounts
import Moonlight.Announcements
import Moonlight.ProtocolLife
import Moonlight.Surplus
import Moonlight.TokenLife
import Moonlight.Submitted
