import CastleWall.Policy.Noninterference
import CastleWall.Server.Composition
import CastleWall.Server.RuleIdentity
import CastleWall.Server.IpParity
import CastleWall.Audit.WriteFault
import CastleWall.Decision.History
import CastleWall.Decision.Timestamp
import CastleWall.Consumer.History
import CastleWall.Ipc.ServerFraming
import CastleWall.Smb.Frame
import CastleWall.Smb.ReplyMatcher
import CastleWall.Runtime.Binding
import CastleWall.Entitlement.Revocation
import CastleWall.Transparency.AnchorVerify
import CastleWall.Transparency.EmitCrash
import CastleWall.Custody.ConfigBaseline
import CastleWall.Mesh.Authority
import CastleWall.Transparency.AgainstLog
import CastleWall.Mesh.AuditAttribution
import CastleWall.Mesh.Convergence
import CastleWall.Mesh.Refusal
import CastleWall.Operational.AuditTamper
import CastleWall.Federation.Succession
import CastleWall.Owner.LedgerSafety
import CastleWall.Custody.PairAtomicity
import CastleWall.Federation.Isolation
import CastleWall.Mesh.SingleUseJoin
import CastleWall.Egress.Serving
import CastleWall.Exit.ImportCrash
import CastleWall.Federation.RootCrash
import CastleWall.Mesh.DenialGovernor
import CastleWall.Mesh.EventId
import CastleWall.Mesh.RotationInstall
import CastleWall.Core.BoundedMap
import CastleWall.Mesh.LifecycleLog
import CastleWall.Federation.BatchGate
import CastleWall.Cognitive.MerkleProof
import CastleWall.Cognitive.NameCodec
import CastleWall.Policy.AgentComponent
import CastleWall.Policy.PacketHeader
import CastleWall.Recovery.Cascade
import CastleWall.Sdw.OwnerPin
