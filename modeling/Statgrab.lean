import Statgrab.Lib.Prog
import Statgrab.Lib.Run
import Statgrab.Lib.Bits
import Statgrab.Lib.Search
import Statgrab.Lib.Block
import Statgrab.Lib.Supply
import Statgrab.Lib.Cells
import Statgrab.Lib.Text
import Statgrab.Lib.Lines
import Statgrab.Lib.Rows
import Statgrab.Lib.Scanf
import Statgrab.Error
import Statgrab.Tools
import Statgrab.Buffers
import Statgrab.Vector.Rounding
import Statgrab.Vector.Code
import Statgrab.Vector.Spec
import Statgrab.Vector.Requests
import Statgrab.Vector.Handover
import Statgrab.Vector.Clone
import Statgrab.Vector.CloneInto
import Statgrab.Vector.BlockSize
import Statgrab.Vector.Capacity
import Statgrab.Vector.Lifecycle
import Statgrab.Vector.Reallocation
import Statgrab.Comp.Code
import Statgrab.Comp.Init
import Statgrab.Comp.Counter
import Statgrab.Comp.ErrorStorage
import Statgrab.Vector.Diff
import Statgrab.Access.Code
import Statgrab.Vector.Ownership
import Statgrab.Access.Ownership
import Statgrab.Access.Threads
import Statgrab.Stats.Ownership
import Statgrab.Stats.Disk
import Statgrab.Stats.Network
import Statgrab.Access.Reader
import Statgrab.Access.Multi
import Statgrab.Stats.Readers
import Statgrab.Stats.MountList
import Statgrab.Stats.FsReader
import Statgrab.Access.DiffCall
import Statgrab.Access.Refusals
import Statgrab.Access.Requests
import Statgrab.Access.Single
import Statgrab.Access.ErrorContract
import Statgrab.Stats.Host
import Statgrab.Stats.DiffRun
import Statgrab.Stats.Baseline
import Statgrab.Stats.FailedReads
import Statgrab.Stats.ReportedErrors
import Statgrab.Stats.CpuPage
import Statgrab.Stats.Differences
import Statgrab.Stats.CpuTotals
import Statgrab.Stats.Copies
import Statgrab.Stats.ValidFs
import Statgrab.Stats.ValidFsRun
import Statgrab.Vector.Matching
import Statgrab.Comp.Mutex
import Statgrab.Comp.Table
import Statgrab.Comp.Builds
import Statgrab.Stats.ProcDir
import Statgrab.Stats.ErrorExits
import Statgrab.Process.Cmdline
import Statgrab.Process.Code
import Statgrab.Process.StatLine
import Statgrab.Process.Fill
import Statgrab.Process.Loop
import Statgrab.Process.Listing
import Statgrab.Process.PidPages
import Statgrab.Process.PidScan
import Statgrab.Process.Bsd
import Statgrab.Process.Records
import Statgrab.Process.Count
import Statgrab.Process.Errors
import Statgrab.Process.CountList
import Statgrab.Access.OneItem
import Statgrab.Stats.CpuPercents
import Statgrab.Lib.Heap
import Statgrab.Lib.Chain
import Statgrab.Lib.Ownership
import Statgrab.Lib.Ranges
import Statgrab.Comp.Layout
import Statgrab.Comp.Globals
import Statgrab.Stats.ValidFsHeap
import Statgrab.Lib.Regex
import Statgrab.Stats.ProcFilesystems
import Statgrab.Stats.FsFilter
import Statgrab.Stats.Swap
import Statgrab.Stats.Meminfo
import Statgrab.Stats.NetDev
import Statgrab.Stats.Diskstats
import Statgrab.Stats.Users
import Statgrab.Stats.Renumber
import Statgrab.Stats.OsInfo
import Statgrab.Stats.DriverList
import Statgrab.Stats.Mappings
import Statgrab.Command.PrintStats
import Statgrab.Command.Sections
import Statgrab.Command.FsList
import Statgrab.Command.SetFilesystems
import Statgrab.Command.StatNames
import Statgrab.Command.StatStore
import Statgrab.Command.PrintStat
import Statgrab.Command.Populate
import Statgrab.Command.Output
import Statgrab.Command.NameList
import Statgrab.Stats.ProcTables
import Statgrab.Access.DiffCalls
import Statgrab.Stats.CpuShown
import Statgrab.Stats.NetIface
import Statgrab.Stats.SortedRun
