import SeqDetect.Triggered.Source
import SeqDetect.Vhdl.Layout
import SeqDetect.Clocked.Netlist
import SeqDetect.Clocked.Matcher
import SeqDetect.Clocked.Detector
import SeqDetect.Clocked.Sample
import SeqDetect.Root.Source
import SeqDetect.Root.Latch
import SeqDetect.Root.Agreement
import SeqDetect.Triggered.Netlist
import SeqDetect.Triggered.Gates
import SeqDetect.Triggered.Memory
import SeqDetect.Triggered.Written
import SeqDetect.Triggered.Ripple
import SeqDetect.Pattern.Followed
import SeqDetect.Triggered.Detector
import SeqDetect.Triggered.Stream
import SeqDetect.Triggered.Idle
import SeqDetect.Triggered.Views
import SeqDetect.Pattern.Chunks
import SeqDetect.Server.Receive
import SeqDetect.Server.Words
import SeqDetect.Server.Sequence
import SeqDetect.Server.Segments
import SeqDetect.Server.Close
import SeqDetect.Server.Data
import SeqDetect.Server.Window
import SeqDetect.Generators.Numbering
import SeqDetect.Script.Groups
import SeqDetect.Server.Timer
import SeqDetect.Triggered.Reset
import SeqDetect.Script.Labels
import SeqDetect.Script.Codes
import SeqDetect.Vhdl.Sketch
import SeqDetect.Clocked.Emitted
import SeqDetect.Clocked.Generated
import SeqDetect.Triggered.Emitted
import SeqDetect.Triggered.Generated
import SeqDetect.Generators.Netlists
import SeqDetect.Memory.Pool
import SeqDetect.Server.Start
import SeqDetect.Server.Allocation
import SeqDetect.Server.Atomic
import SeqDetect.Script.Backend
import SeqDetect.Clocked.Progress
import SeqDetect.Finder.Output
import SeqDetect.Controller.Session
import SeqDetect.Nic.Exhaustion
import SeqDetect.Generators.Agreement
import SeqDetect.Generators.Persistence
import SeqDetect.Root.Clocked
import SeqDetect.Server.Dispatch
