import HeapCensus.AgentTable.Reading
import HeapCensus.Listing
import HeapCensus.Main
import HeapCensus.Observation
import HeapCensus.Proofs.AllocationOrder
import HeapCensus.Proofs.Attendance
import HeapCensus.Proofs.Charges
import HeapCensus.Proofs.ClassCache
import HeapCensus.Proofs.ClassRecord
import HeapCensus.Proofs.Completion
import HeapCensus.Proofs.Counting
import HeapCensus.Proofs.Custody
import HeapCensus.Proofs.Delivery
import HeapCensus.Proofs.Denotation
import HeapCensus.Proofs.Draining
import HeapCensus.Proofs.Enumeration
import HeapCensus.Proofs.FeedCharges
import HeapCensus.Proofs.ForEach
import HeapCensus.Proofs.Gauges
import HeapCensus.Proofs.InstanceLists
import HeapCensus.Proofs.Latency
import HeapCensus.Proofs.Lifecycle
import HeapCensus.Proofs.MemoryFrame
import HeapCensus.Proofs.Noninterference
import HeapCensus.Proofs.NotedTags
import HeapCensus.Proofs.OpenScans
import HeapCensus.Proofs.Overlap
import HeapCensus.Proofs.Rejection
import HeapCensus.Proofs.Remainder
import HeapCensus.Proofs.Remembering
import HeapCensus.Proofs.Resolution
import HeapCensus.Proofs.Room
import HeapCensus.Proofs.Sampling
import HeapCensus.Proofs.ScanCallbacks
import HeapCensus.Proofs.ScanLatencies
import HeapCensus.Proofs.ScanOrder
import HeapCensus.Proofs.ScanUsers
import HeapCensus.Proofs.Selection
import HeapCensus.Proofs.Spelling
import HeapCensus.Proofs.Streaming
import HeapCensus.Proofs.TagAccounts
import HeapCensus.Proofs.TimingAccounts
import HeapCensus.Proofs.Totals
import HeapCensus.Proofs.Transcript
import HeapCensus.Rehearsal.Reading
import HeapCensus.Proofs.ArrayNames
import HeapCensus.Proofs.LatencyStats
import HeapCensus.Proofs.Collecting
import HeapCensus.Proofs.GaugeCounts
import HeapCensus.Proofs.SubtypeSearch
import HeapCensus.Proofs.NameLists
