import TileBuffer.Config.Json
import TileBuffer.Fragment.Cursor
import TileBuffer.Fragment.Edit
import TileBuffer.Session
import TileBuffer.View
import TileBuffer.Proofs.Grouping
import TileBuffer.Proofs.TileOrder
import TileBuffer.Proofs.Tiling
import TileBuffer.Proofs.Run
import TileBuffer.Proofs.Tiles
import TileBuffer.Proofs.Fragment.Row
import TileBuffer.Proofs.Fragment.Stored
import TileBuffer.Proofs.Fragment.Append
import TileBuffer.Proofs.Fragment.Canonical
import TileBuffer.Proofs.Fragment.Values
import TileBuffer.Proofs.Fragment.Built
import TileBuffer.Proofs.Fragment.Memory
import TileBuffer.Proofs.Fragment.Forms
import TileBuffer.Proofs.Flush
import TileBuffer.Proofs.Position
import TileBuffer.Proofs.Content
import TileBuffer.Proofs.Session.Moves
import TileBuffer.Proofs.Session.Steps
import TileBuffer.Proofs.Session.Runs
import TileBuffer.Proofs.Report
import TileBuffer.Proofs.Session.Accounts
import TileBuffer.Proofs.Entries
import TileBuffer.Proofs.Session.LastWrite
import TileBuffer.Proofs.Session.Stream
import TileBuffer.Proofs.Session.Chunks
import TileBuffer.Proofs.Session.Answer
import TileBuffer.Proofs.Session.FailedFlush
import TileBuffer.Proofs.Session.Refusal
import TileBuffer.Proofs.Arrival
import TileBuffer.Proofs.Session.Accepted
import TileBuffer.Proofs.Session.Import
import TileBuffer.Proofs.Session.Memory
import TileBuffer.Proofs.Storage
import TileBuffer.Proofs.Shape
import TileBuffer.Proofs.Outside
import TileBuffer.Proofs.Session.Faults
import TileBuffer.Proofs.Partition
import TileBuffer.Proofs.Fragment.Cursor
import TileBuffer.Proofs.Region
import TileBuffer.Proofs.Session.Stacking
import TileBuffer.Proofs.Session.Interrupted
import TileBuffer.Proofs.Session.Placement
import TileBuffer.Proofs.Setting
import TileBuffer.Proofs.Json
import TileBuffer.Proofs.Config.Json
import TileBuffer.Proofs.Json.Text
import TileBuffer.Proofs.Fragment.Vectors
import TileBuffer.Proofs.Fragment.Layout
import TileBuffer.Proofs.Fragment.Sound
import TileBuffer.Proofs.TileSort
import TileBuffer.Proofs.MaximalRuns
import TileBuffer.Proofs.Fragment.RowSort
