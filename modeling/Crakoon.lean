import Crakoon.Reader
import Crakoon.LoggedReader
import Crakoon.Basic
import Crakoon.Protocol
import Crakoon.Wire
import Crakoon.Sequence
import Crakoon.SequenceRoundTrip
import Crakoon.Request
import Crakoon.RequestRoundTrip
import Crakoon.Program
import Crakoon.Commands
import Crakoon.Prophecies
import Crakoon.Memory
import Crakoon.Networking
import Crakoon.TimeBudget
import Crakoon.LoopRounds
import Crakoon.Machines
import Crakoon.Scripts
import Crakoon.TransferMachine
import Crakoon.ExactTransfer
import Crakoon.EarlyTimeout
import Crakoon.ElapsedTime
import Crakoon.TimedReads
import Crakoon.Interruptions
import Crakoon.Connection
import Crakoon.Cluster
import Crakoon.Routing
import Crakoon.RoutingGrammar
import Crakoon.RoutingRoundTrip
import Crakoon.RoutingCleanup
import Crakoon.RoutingSizes
import Crakoon.Session
import Crakoon.Client
import Crakoon.Chains
import Crakoon.ValueLists
import Crakoon.Reply
import Crakoon.Decode
import Crakoon.DecodeScripts
import Crakoon.Operation
import Crakoon.Dispatch
import Crakoon.Results
import Crakoon.Exchange
import Crakoon.ReplyRoundTrip
import Crakoon.Connect
import Crakoon.NodePrograms
import Crakoon.Nursery
import Crakoon.NurserySafety
import Crakoon.BareExchange
import Crakoon.Balance
import Crakoon.TextResults
import Crakoon.ConnInvariant
import Crakoon.ClientRuns
import Crakoon.RequestFraming
import Crakoon.NurseryUpdate
import Crakoon.ReplyFraming
import Crakoon.RepliesOutOfMemory
import Crakoon.Onward
import Crakoon.ListRefinement
import Crakoon.KeyValuePrepend
import Crakoon.ListIteration
import Crakoon.ListReplies
import Crakoon.MultiGetStream
import Crakoon.OperationRequests
import Crakoon.ServedRuns
import Crakoon.SharedServer
import Crakoon.NurseryMap
import Crakoon.ClusterRuns
import Crakoon.LastError
import Crakoon.FailingOperations
import Crakoon.WhoMaster
import Crakoon.CppCluster
import Crakoon.CppBuffer
import Crakoon.CppIterators
import Crakoon.ErrorCodes
import Crakoon.CppValues
import Crakoon.MasterSearch
import Crakoon.SearchPaths
import Crakoon.StaleConnections
import Crakoon.Introduced
import Crakoon.RequestSizes
import Crakoon.PartitionTree
import Crakoon.RoutingOrder
import Crakoon.Ledger
import Crakoon.Custody
import Crakoon.Objects
import Crakoon.TableObjects
import Crakoon.ObjectRuns
import Crakoon.CppObjects
import Crakoon.NodeScripts
import Crakoon.Lines
import Crakoon.NodeGraph
import Crakoon.NodeInvariant
import Crakoon.NodeFunctions
import Crakoon.NodeLists
import Crakoon.SocketLife
import Crakoon.ConnectRound
import Crakoon.ReadySockets
import Crakoon.Descriptors
import Crakoon.Hosts
import Crakoon.LinkedNodes
