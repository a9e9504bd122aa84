import Databend.Library.SortedMap
import Databend.Library.ExceptM
import Databend.Library.Merge
import Databend.Meta.Marked
import Databend.Meta.Level
import Databend.Meta.LeveledMap
import Databend.Meta.SMV002
import Databend.Meta.Applier
import Databend.Meta.Reachable
import Databend.Meta.Ordered
import Databend.Meta.Compaction
import Databend.Meta.Invariant
import Databend.Meta.Expire
import Databend.Meta.Snapshot
import Databend.Meta.Upsert
import Databend.Library.PrefixScan
import Databend.Meta.ListKv
import Databend.Library.Decimal
import Databend.Kvapi.KeyCodec
import Databend.Kvapi.Keys
import Databend.Hashtable.HashJoinHashtable
import Databend.Library.Kleene
import Databend.HashJoin.LeftMark
import Databend.Library.ByteOrder
import Databend.Row.Fixed
import Databend.Row.Variable
import Databend.Row.RowConverter
import Databend.Library.IndexList
import Databend.Fuse.SnapshotGenerator
import Databend.Expression.ReadDecimal
import Databend.Aggregate.Distinct
import Databend.Index.BloomIndex
import Databend.Library.Cyclic
import Databend.Hashtable.Table0
import Databend.Hashtable.Grow
import Databend.Hashtable.Hashtable
import Databend.Rangemap.RangeMerger
import Databend.Rangemap.RangeMap
import Databend.Expression.DateHelper
import Databend.Expression.DecimalArith
import Databend.Fuse.SegmentCompact
import Databend.Library.Utf8
import Databend.Fuse.ColumnStatistic
import Databend.Expression.ArithmeticDomain
import Databend.Expression.GroupBy
import Databend.Library.LinkedPush
import Databend.HashJoin.BuildState
import Databend.Hashtable.HashJoinStringHashtable
import Databend.Sort.Cursor
import Databend.Library.MinQueue
import Databend.Sort.SortMerge
import Databend.Sort.CompactFinal
import Databend.Library.BinaryHeap
import Databend.Expression.TopK
import Databend.Library.Buffer
import Databend.HashJoin.ProbeLoop
import Databend.HashJoin.InnerJoin
import Databend.HashJoin.SemiJoin
import Databend.HashJoin.AntiJoin
