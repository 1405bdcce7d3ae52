import MatrixRaft.Elections
import MatrixRaft.WalCrash
import MatrixRaft.WalDamage
import MatrixRaft.Rpc.Stream
import MatrixRaft.Peer.Packets
import MatrixRaft.Peer.Resync
import MatrixRaft.SnapshotTransfer
import MatrixRaft.RefusedAppend
import MatrixRaft.AppendOrder
import MatrixRaft.FailedProposal
import MatrixRaft.TermRuns
import MatrixRaft.Peer.Membership
import MatrixRaft.WalReports
import MatrixRaft.SnapshotStatus
import MatrixRaft.WalChecksum
import MatrixRaft.Described
import MatrixRaft.LogBuffer
import MatrixRaft.Ticker
import MatrixRaft.MailPool
import MatrixRaft.FsmAdapter
import MatrixRaft.MailBox
import MatrixRaft.PeerAddresses
import MatrixRaft.HeartbeatMerge
import MatrixRaft.LeaseQuorums
import MatrixRaft.ReadSafety
import MatrixRaft.Checksum
