import Spqr.Lib.Runs
import Spqr.Lib.Residues
import Spqr.Lib.LittleEndian
import Spqr.Packet
import Spqr.Receiver
import Spqr.Sender
import Spqr.Transfer
import Spqr.Chunks
import Spqr.SenderWindow
import Spqr.ReceiverWindow
import Spqr.Integrity
import Spqr.WriteError
import Spqr.InOrder
import Spqr.InStep
import Spqr.StaleAck
import Spqr.Lib.Channels
import Spqr.Accounting
import Spqr.Completion
import Spqr.Lengths
import Spqr.Wire
import Spqr.Datagrams
import Spqr.Texts
import Spqr.Session
import Spqr.Notices
import Spqr.Isolation
import Spqr.Contamination
import Spqr.Ongoing
import Spqr.Lockstep
import Spqr.Turns
import Spqr.Deadlock
import Spqr.Dialogue
import Spqr.Lib.Bitmask
import Spqr.Slots
import Spqr.Allocation
import Spqr.Opening
import Spqr.Lib.FileSystem
import Spqr.PutPath
import Spqr.Lib.Directory
import Spqr.Store
import Spqr.Uploads
import Spqr.Downloads
import Spqr.Lib.Unwinding
import Spqr.Strangers
import Spqr.Signals
import Spqr.Lib.LineBuffer
import Spqr.Listing
import Spqr.Lib.FileTree
import Spqr.FailedReceive
import Spqr.Rejections
import Spqr.WriteOrder
import Spqr.Loading
import Spqr.Lib.Numerals
import Spqr.Ports
import Spqr.FinalAcks
import Spqr.Progress
import Spqr.SocketTimeout
import Spqr.Lib.Simulation
import Spqr.Lib.SelectiveRepeat
import Spqr.Refinement
import Spqr.Recovery
import Spqr.Service
import Spqr.Serving
import Spqr.Encoded
import Spqr.Sharing
import Spqr.Lib.Backoff
import Spqr.Patience
import Spqr.Shutdown
import Spqr.Traffic
import Spqr.Lib.Countdown
import Spqr.Sigterm
import Spqr.Closedown
