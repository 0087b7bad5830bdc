import XHDF5.Math.Token
import XHDF5.Math.CInt
import XHDF5.Math.Grid
import XHDF5.Math.Region
import XHDF5.Math.Run
import XHDF5.Math.Ravel
import XHDF5.Math.Growing
import XHDF5.Client.Selection
import XHDF5.Client.Split
import XHDF5.Client.SplitMerge
import XHDF5.Client.Response
import XHDF5.Client.Retry
import XHDF5.Client.MultiPerform
import XHDF5.Client.Workers
import XHDF5.Client.Read
import XHDF5.Client.Base64
import XHDF5.Client.Dataspace
import XHDF5.Client.Url
import XHDF5.Client.Transfer
import XHDF5.Client.Write
import XHDF5.Plugin.Select
import XHDF5.Plugin.Query
import XHDF5.Plugin.Route
import XHDF5.Plugin.Write
import XHDF5.Exchange.Selection
import XHDF5.Exchange.Address
import XHDF5.Exchange.Write
import XHDF5.Client.Objects
import XHDF5.Client.Lifecycle
import XHDF5.Client.RefCount
import XHDF5.Client.Registry
import XHDF5.Client.Perform
import XHDF5.Plugin.Jsmn
import XHDF5.Plugin.Create
import XHDF5.Plugin.Process
import XHDF5.Exchange.Housekeeping
import XHDF5.Math.Bytes
import XHDF5.Plugin.Pipe
import XHDF5.Plugin.Fork
import XHDF5.Math.Json
import XHDF5.Math.Printing
import XHDF5.Client.Datatype
import XHDF5.Client.DatatypeJson
import XHDF5.Client.DatatypeRead
import XHDF5.Client.DatatypeRoundTrip
import XHDF5.Client.CreateBody
import XHDF5.Client.CreationRoundTrip
import XHDF5.Plugin.Tokens
import XHDF5.Plugin.Walk
import XHDF5.Plugin.ChunkResp
import XHDF5.Client.ReadCache
import XHDF5.Client.ReadCacheSpec
import XHDF5.Client.ReadCacheRuns
import XHDF5.Client.ThreadPool
import XHDF5.Client.CompletionWait
import XHDF5.Client.DataspaceJson
import XHDF5.Math.NumberFormat
import XHDF5.Plugin.ElementType
import XHDF5.Links.Server
import XHDF5.Links.Find
import XHDF5.Links.Create
import XHDF5.Links.Resume
import XHDF5.Links.Visit
import XHDF5.Plugin.Describe
import XHDF5.Client.Open
import XHDF5.Exchange.Open
import XHDF5.Exchange.Sharing
import XHDF5.Math.Effect
import XHDF5.Client.Intent
import XHDF5.Math.Calls
import XHDF5.Plugin.Status
import XHDF5.Plugin.Intake
import XHDF5.Client.Room
import XHDF5.Exchange.Resize
import XHDF5.Client.WriteList
import XHDF5.Client.StoredSpaces
import XHDF5.Math.Buffer
import XHDF5.Client.ConvertedWrite
import XHDF5.Client.AttributeValues
import XHDF5.Exchange.AttributeRename
import XHDF5.Client.QueryFrame
import XHDF5.Client.Upload
import XHDF5.Client.ResponseGrowth
import XHDF5.Client.LinkValue
import XHDF5.Client.ObjectRefs
import XHDF5.Client.FastPath
import XHDF5.Client.SelectionJson
import XHDF5.Links.ByIndex
import XHDF5.Math.Ledger
import XHDF5.Client.DatatypeCode
import XHDF5.Client.DatatypeCleanup
import XHDF5.Math.Holdings
import XHDF5.Math.Cleanup
import XHDF5.Client.TransferLedger
import XHDF5.Client.TransferRelease
import XHDF5.Client.HandlePath
import XHDF5.Math.Braces
import XHDF5.Client.SectionScan
import XHDF5.Client.PoolStart
import XHDF5.Math.Percent
import XHDF5.Client.UrlEncode
import XHDF5.Plugin.SelectCheck
import XHDF5.Math.Stores
import XHDF5.Client.JsonValues
import XHDF5.Client.ListingCut
import XHDF5.Client.ConvertedRead
import XHDF5.Math.Exits
import XHDF5.Client.SharedHandle
import XHDF5.Math.Chains
import XHDF5.Client.HashTable
import XHDF5.Math.Intervals
import XHDF5.Client.Background
import XHDF5.Math.PathMaking
import XHDF5.Links.GroupCreate
import XHDF5.Math.Heap
import XHDF5.Client.MemTracker
import XHDF5.Math.Lines
import XHDF5.Client.ConfigFile
