import Sippycup.Envelope.FieldNames
import Sippycup.Envelope.Verified
import Sippycup.Runtime.Soundness
import Sippycup.Oracle.Undamaged
import Sippycup.Chaos.Cleanup
import Sippycup.Chaos.Recompiled
import Sippycup.Webrtc.ReplayFree
import Sippycup.Torture.Reported
import Sippycup.Torture.Paced
import Sippycup.Learn.OracleOrder
import Sippycup.Learn.Exactness
import Sippycup.Journal.FailsClosed
import Sippycup.Journal.Preserved
import Sippycup.Capture.Ceilings
import Sippycup.Mission.Applied
import Sippycup.Webrtc.SessionCover
import Sippycup.Campaign.Completion
import Sippycup.Campaign.ActionGrammar
import Sippycup.Envelope.Streaks
import Sippycup.WebSecurity.Earned
import Sippycup.Capture.Finalized
import Sippycup.Webrtc.CallChain
import Sippycup.Oracle.ForkLegs
import Sippycup.WebSecurity.OwnErrors
import Sippycup.Oracle.Attribution
import Sippycup.Oracle.Streams
import Sippycup.Oracle.Renegotiation
import Sippycup.Webrtc.IceRestart
import Sippycup.Torture.Minimal
import Sippycup.Learn.Roles
import Sippycup.Webrtc.Minimize
import Sippycup.Campaign.Outputs
import Sippycup.Chaos.Measurement
import Sippycup.Resilience.Separated
import Sippycup.Evidence.Inventoried
import Sippycup.Evidence.Inspection
import Sippycup.Evidence.Total
import Sippycup.Runtime.Redacted
import Sippycup.Envelope.Recovery
import Sippycup.Mcp.Planning
import Sippycup.Mcp.Hidden
import Sippycup.Mission.Survival
import Sippycup.Workbench.Rehearsal
import Sippycup.Media.Sender
