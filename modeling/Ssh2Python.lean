import Ssh2Python.Lib.CInt
import Ssh2Python.Lib.Transfer
import Ssh2Python.Lib.CString
import Ssh2Python.Lib.Lines
import Ssh2Python.Lib.Base64
import Ssh2Python.Lib.Wire
import Ssh2Python.Lib.Patch
import Ssh2Python.Errors
import Ssh2Python.Utils
import Ssh2Python.FindEol
import Ssh2Python.Write
import Ssh2Python.Verify.Write
import Ssh2Python.Verify.WriteResult
import Ssh2Python.Verify.FindEol
import Ssh2Python.Verify.EolLaw
import Ssh2Python.KeyboardInteractive
import Ssh2Python.Verify.KeyboardInteractive
import Ssh2Python.Verify.KbdExceptions
import Ssh2Python.Lib.Ledger
import Ssh2Python.SftpHandle
import Ssh2Python.Verify.SftpHandleClose
import Ssh2Python.Verify.Readdir
import Ssh2Python.Verify.Offset
import Ssh2Python.Sftp
import Ssh2Python.Verify.SftpErrors
import Ssh2Python.Pipeline
import Ssh2Python.RemoteFile
import Ssh2Python.Verify.PipelineWire
import Ssh2Python.Verify.PipelineReplies
import Ssh2Python.Verify.PipelineRead
import Ssh2Python.Verify.ReadCalls
import Ssh2Python.Verify.ReadRuns
import Ssh2Python.Verify.PipelineWrite
import Ssh2Python.Verify.WriteCalls
import Ssh2Python.Verify.WriteRuns
import Ssh2Python.Buffers
import Ssh2Python.Verify.Buffers
import Ssh2Python.KnownHostLine
import Ssh2Python.Verify.KnownHostLine
import Ssh2Python.KnownHosts
import Ssh2Python.Verify.KnownHosts
import Ssh2Python.Verify.KnownHostCheck
import Ssh2Python.Verify.KnownHostInput
import Ssh2Python.ChannelResults
import Ssh2Python.Verify.ChannelResults
import Ssh2Python.FreshBuffers
import Ssh2Python.Verify.FreshBuffers
import Ssh2Python.HostKey
import Ssh2Python.Verify.HostKey
import Ssh2Python.Methods
import Ssh2Python.Verify.Methods
import Ssh2Python.Open
import Ssh2Python.Verify.Open
import Ssh2Python.TearDown
import Ssh2Python.Verify.TearDown
import Ssh2Python.PublicKeyFetch
import Ssh2Python.Verify.PublicKeyFetch
import Ssh2Python.Agent
import Ssh2Python.Verify.Agent
import Ssh2Python.Verify.Identities
import Ssh2Python.Nodes
import Ssh2Python.Verify.Nodes
import Ssh2Python.Lib.Cursor
import Ssh2Python.Listing
import Ssh2Python.Verify.Listing
import Ssh2Python.Arguments
import Ssh2Python.Verify.Arguments
import Ssh2Python.IntArguments
import Ssh2Python.Verify.IntArguments
import Ssh2Python.Texts
import Ssh2Python.Verify.Texts
import Ssh2Python.Objects
import Ssh2Python.Verify.Destruction
import Ssh2Python.Verify.Channels
import Ssh2Python.Verify.Release
import Ssh2Python.Lib.Outgoing
import Ssh2Python.Lib.Credit
import Ssh2Python.Connection
import Ssh2Python.ChannelLine
import Ssh2Python.Verify.Connection
import Ssh2Python.Verify.ChannelNeighbours
import Ssh2Python.Verify.ChannelArrivals
import Ssh2Python.Verify.ChannelCalls
import Ssh2Python.Verify.ChannelRuns
