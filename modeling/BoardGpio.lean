import BoardGpio.Backend.Device
import BoardGpio.Backend.Rig
import BoardGpio.Bench.Report
import BoardGpio.Board.Identify
import BoardGpio.Handle.Batch
import BoardGpio.Handle.Cursor
import BoardGpio.Handle.Hub
import BoardGpio.Input.Cycle
import BoardGpio.Input.Open
import BoardGpio.Output.Port
import BoardGpio.PinSet.Edit
import BoardGpio.Proofs.Act.Failing
import BoardGpio.Proofs.Act.Invariant
import BoardGpio.Proofs.Act.Match
import BoardGpio.Proofs.Act.Refusal
import BoardGpio.Proofs.Backend.Apart
import BoardGpio.Proofs.Backend.Bcm
import BoardGpio.Proofs.Backend.BcmFields
import BoardGpio.Proofs.Backend.Device
import BoardGpio.Proofs.Backend.Driving
import BoardGpio.Proofs.Backend.Faulty
import BoardGpio.Proofs.Backend.H3
import BoardGpio.Proofs.Backend.H3Fields
import BoardGpio.Proofs.Backend.Matching
import BoardGpio.Proofs.Backend.Mishap
import BoardGpio.Proofs.Backend.PinCalls
import BoardGpio.Proofs.Backend.Reading
import BoardGpio.Proofs.Backend.Recorded
import BoardGpio.Proofs.Backend.Refusal
import BoardGpio.Proofs.Backend.Restorable
import BoardGpio.Proofs.Backend.Sim
import BoardGpio.Proofs.Backend.SimH3
import BoardGpio.Proofs.Backend.Switching
import BoardGpio.Proofs.Backend.Transcript
import BoardGpio.Proofs.Backend.Unsteady
import BoardGpio.Proofs.Board.Addresses
import BoardGpio.Proofs.Board.Coherent
import BoardGpio.Proofs.Board.Lines
import BoardGpio.Proofs.Handle.Addressed
import BoardGpio.Proofs.Handle.Alike
import BoardGpio.Proofs.Handle.Batches
import BoardGpio.Proofs.Handle.Beside
import BoardGpio.Proofs.Handle.Bookmark
import BoardGpio.Proofs.Handle.Calls
import BoardGpio.Proofs.Handle.ChipNumbers
import BoardGpio.Proofs.Handle.Conversation
import BoardGpio.Proofs.Handle.Cursor
import BoardGpio.Proofs.Handle.Isolation
import BoardGpio.Proofs.Handle.Kept
import BoardGpio.Proofs.Handle.LastClose
import BoardGpio.Proofs.Handle.Lasting
import BoardGpio.Proofs.Handle.Levels
import BoardGpio.Proofs.Handle.Moments
import BoardGpio.Proofs.Handle.Numbering
import BoardGpio.Proofs.Handle.Opening
import BoardGpio.Proofs.Handle.Paired
import BoardGpio.Proofs.Handle.Recounted
import BoardGpio.Proofs.Handle.References
import BoardGpio.Proofs.Handle.Registry
import BoardGpio.Proofs.Handle.Restore
import BoardGpio.Proofs.Handle.Said
import BoardGpio.Proofs.Handle.Script
import BoardGpio.Proofs.Handle.SimH3
import BoardGpio.Proofs.Handle.SinglePin
import BoardGpio.Proofs.Handle.Sited
import BoardGpio.Proofs.Handle.Tenants
import BoardGpio.Proofs.Handle.Uses
import BoardGpio.Proofs.Input.Account
import BoardGpio.Proofs.Input.Agree
import BoardGpio.Proofs.Input.Apart
import BoardGpio.Proofs.Input.Attended
import BoardGpio.Proofs.Input.Calls
import BoardGpio.Proofs.Input.Chronicle
import BoardGpio.Proofs.Input.Current
import BoardGpio.Proofs.Input.CycleLock
import BoardGpio.Proofs.Input.Debounce
import BoardGpio.Proofs.Input.Failing
import BoardGpio.Proofs.Input.Lifecycle
import BoardGpio.Proofs.Input.Opened
import BoardGpio.Proofs.Input.Own
import BoardGpio.Proofs.Input.Poll
import BoardGpio.Proofs.Input.Reported
import BoardGpio.Proofs.Input.Sampling
import BoardGpio.Proofs.Input.Sight
import BoardGpio.Proofs.Input.Stream
import BoardGpio.Proofs.Input.Switch
import BoardGpio.Proofs.Input.Threads
import BoardGpio.Proofs.Input.Trace
import BoardGpio.Proofs.Input.World
import BoardGpio.Proofs.Json.Laws
import BoardGpio.Proofs.Json.Token
import BoardGpio.Proofs.Json.Written
import BoardGpio.Proofs.Json.Yield
import BoardGpio.Proofs.Log.Bursts
import BoardGpio.Proofs.Output.Array
import BoardGpio.Proofs.Output.Opening
import BoardGpio.Proofs.Output.Shown
import BoardGpio.Proofs.PinSet
import BoardGpio.Proofs.PinSet.Iteration
import BoardGpio.Proofs.PinSet.Members
import BoardGpio.Proofs.PinTable.Reach
import BoardGpio.Proofs.PinTable.Translation
import BoardGpio.Proofs.Register.Access
import BoardGpio.Proofs.Register.Field
import BoardGpio.Proofs.Settings.RoundTrip
import BoardGpio.Settings.Document
