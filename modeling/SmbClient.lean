import SmbClient.Crypt.Channels
import SmbClient.Compression.Bounds
import SmbClient.Credits.Balance
import SmbClient.Credits.MessageIds
import SmbClient.Login.PreAuth
import SmbClient.Multichannel.Successful
import SmbClient.Negotiate.Offered
import SmbClient.ReadWrite.ReplySize
import SmbClient.ReadWrite.Write
import SmbClient.Receive.Smb1
import SmbClient.ReadWrite.Failure
import SmbClient.Replies.Ioctl
import SmbClient.Multichannel.TrialCount
import SmbClient.Multichannel.Excess
import SmbClient.Multichannel.QueryInfo
import SmbClient.Multichannel.Ignorelist
import SmbClient.Channels.Failover
import SmbClient.Channels.RoundRobin
import SmbClient.Credits.Construction
import SmbClient.Mbuf.Utf16
import SmbClient.Receive.NextCommand
import SmbClient.Receive.Unwrapped
import SmbClient.Requests.Queue
import SmbClient.Transactions.Assembled
import SmbClient.Leases.Key
import SmbClient.Leases.Order
import SmbClient.Security.Modes
import SmbClient.Security.Roundtrip
import SmbClient.Compression.Extension
import SmbClient.Converter.Complete
import SmbClient.Directory.CachePrune
import SmbClient.Directory.Order
import SmbClient.Locks.ByteRange
import SmbClient.Notify.Callback
import SmbClient.Notify.ServerMessages
import SmbClient.Paths.FullPath
import SmbClient.Replies.Close
import SmbClient.Replies.ReadBound
import SmbClient.Transport.NbHeader
import SmbClient.Transport.NbName
import SmbClient.Connect.ServerInfo
import SmbClient.Mbuf.Uio
import SmbClient.Rap.ShareEnum
import SmbClient.Negotiate.Dialects
