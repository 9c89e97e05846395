import RemoteTable.TableRefinement
import RemoteTable.DecodeBounds
import RemoteTable.Requests
import RemoteTable.SplitTransfers
import RemoteTable.Rejoin
import RemoteTable.Replication
import RemoteTable.Roles
import RemoteTable.RepeatedWrites
import RemoteTable.SecondaryReplies
import RemoteTable.StreamEnds
import RemoteTable.UnsetReplies
import RemoteTable.BackupLink
import RemoteTable.ClientStub
import RemoteTable.StubReplies
import RemoteTable.LostReplies
import RemoteTable.ConcurrentClients
import RemoteTable.BucketIndex
import RemoteTable.KeyArrays
import RemoteTable.ListCalls
import RemoteTable.TableLayout
import RemoteTable.Sentences
import RemoteTable.EncodeBounds
import RemoteTable.FreedMessages
import RemoteTable.ClientArgs
import RemoteTable.CommandLoop
import RemoteTable.PollLoop
import RemoteTable.Addresses
import RemoteTable.Library.Memory
import RemoteTable.TableCleanup
import RemoteTable.Allocation
import RemoteTable.EntryCopies
import RemoteTable.StoredTables
import RemoteTable.AllocationFailures
import RemoteTable.Descriptors
import RemoteTable.Failover
import RemoteTable.MainLoop
import RemoteTable.PointerCalls
import RemoteTable.TypedSessions
import RemoteTable.PointerProcess
