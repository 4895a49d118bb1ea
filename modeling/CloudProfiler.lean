import CloudProfiler.Run
import CloudProfiler.Census
import CloudProfiler.Log
import CloudProfiler.Identity
import CloudProfiler.Block
import CloudProfiler.Resequence
import CloudProfiler.Writer
import CloudProfiler.Buffer
import CloudProfiler.Buffer.Move
import CloudProfiler.Buffer.Channel
import CloudProfiler.Buffer.Ownership
import CloudProfiler.Buffer.Count
import CloudProfiler.Buffer.Route
import CloudProfiler.Buffer.Refine
import CloudProfiler.Buffer.Tsc
import CloudProfiler.Buffer.Schedule
import CloudProfiler.Buffer.Producer
import CloudProfiler.Buffer.Pipeline
import CloudProfiler.Buffer.Defined
import CloudProfiler.Buffer.Conserve
import CloudProfiler.Buffer.Exclusive
import CloudProfiler.Buffer.Deliver
import CloudProfiler.Buffer.Close
import CloudProfiler.Buffer.Lifetime
import CloudProfiler.Buffer.Exit
import CloudProfiler.Buffer.Drain
import CloudProfiler.Buffer.Formats
import CloudProfiler.Config
import CloudProfiler.Config.FoxEnd
import CloudProfiler.Config.Message
import CloudProfiler.Time
import CloudProfiler.Handler
import CloudProfiler.Handler.Bulk
import CloudProfiler.Handler.Call
import CloudProfiler.Handler.Closed
import CloudProfiler.Loop
import CloudProfiler.Convert
import CloudProfiler.JObjFactory
import CloudProfiler.JStrFactory
import CloudProfiler.FastCounter
import CloudProfiler.FastCounter.Move
import CloudProfiler.FastCounter.Registry
import CloudProfiler.FastCounter.Settle
import CloudProfiler.FastCounter.Submit
import CloudProfiler.FastCounter.Serial
import CloudProfiler.FastCounter.Total
import CloudProfiler.FastCounter.Return
import CloudProfiler.FastCounter.Terminate
import CloudProfiler.RunLength
import CloudProfiler.FastCounter.Interval
import CloudProfiler.Text
import CloudProfiler.Dict
import CloudProfiler.Tsc
import CloudProfiler.Tsc.Minrtt
import CloudProfiler.Tsc.Master
import CloudProfiler.Tsc.Matrix
import CloudProfiler.Tsc.Scheduler
import CloudProfiler.Mirror
import CloudProfiler.Format
import CloudProfiler.FileName
import CloudProfiler.ChInfo
import CloudProfiler.FastCounter.Throughput
import CloudProfiler.Closed
import CloudProfiler.Contract
import CloudProfiler.Mutex
import CloudProfiler.StatusLog
import CloudProfiler.Sense
import CloudProfiler.Gpio
import CloudProfiler.Objects
import CloudProfiler.ZmqTimer
import CloudProfiler.Handler.Capacity
import CloudProfiler.Nanos
import CloudProfiler.Handler.Periodic
import CloudProfiler.Handler.FlushTime
import CloudProfiler.Insertion
import CloudProfiler.Handler.Median
import CloudProfiler.Handler.XoY
import CloudProfiler.Handler.Sampling
import CloudProfiler.Handler.Literal
import CloudProfiler.Rejected
import CloudProfiler.Buffer.Tables
import CloudProfiler.Convert.Damaged
import CloudProfiler.Convert.Terminate
import CloudProfiler.Config.Select
import CloudProfiler.Least
import CloudProfiler.Elapsed
import CloudProfiler.Grouping
import CloudProfiler.Commas
import CloudProfiler.Duration
import CloudProfiler.Numeral
import CloudProfiler.DumpTS
import CloudProfiler.FastCounter.Load
import CloudProfiler.Tsc.Registration
import CloudProfiler.Tsc.Sample
import CloudProfiler.Tsc.Bulk
import CloudProfiler.Tsc.Async
import CloudProfiler.InPlace
import CloudProfiler.GcSampling
import CloudProfiler.Barrier
import CloudProfiler.Rotation
import CloudProfiler.Pieces
import CloudProfiler.Emit.Schedule
import CloudProfiler.Emit.Receive
import CloudProfiler.Emit.Bucket
import CloudProfiler.Emit.Load
import CloudProfiler.Fox
import CloudProfiler.Fox.Exchange
import CloudProfiler.Fox.Agree
import CloudProfiler.Fox.Settle
import CloudProfiler.TupleLog
import CloudProfiler.Fox.Latency
import CloudProfiler.Emit.Deliver
import CloudProfiler.LogText
import CloudProfiler.Convert.Files
import CloudProfiler.Buffer.Loaded
import CloudProfiler.Tsc.Session
import CloudProfiler.Tsc.Offset
import CloudProfiler.Tsc.Leave
import CloudProfiler.Tsc.Progress
import CloudProfiler.Config.Rendezvous
import CloudProfiler.Config.Settle
import CloudProfiler.FastCounter.Fits
import CloudProfiler.FastCounter.Loaded
import CloudProfiler.Tsc.Greedy
import CloudProfiler.Tsc.Distinct
import CloudProfiler.Ntplogd
import CloudProfiler.Tsc.Sync
import CloudProfiler.Spacing
import CloudProfiler.Emit.Pace
