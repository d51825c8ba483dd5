import Homestead.Main
import Homestead.Schedule
import Homestead.Proofs.Text.Utf8
import Homestead.Proofs.Stream.Datum
import Homestead.Proofs.Attribute.Table
import Homestead.Proofs.Item.Values
import Homestead.Proofs.Record.Update
import Homestead.Proofs.Record.Fields
import Homestead.Proofs.Record.Source
import Homestead.Proofs.Record.Rebuilt
import Homestead.Proofs.Record.SubType
import Homestead.Proofs.Item.Trees
import Homestead.Proofs.Record.Reading
import Homestead.Proofs.Record.RoundTrip
import Homestead.Proofs.Graph.Lookup
import Homestead.Proofs.Graph.Consistent
import Homestead.Proofs.Graph.Steps
import Homestead.Proofs.Graph.Trees
import Homestead.Proofs.Graph.Plant
import Homestead.Proofs.Graph.Existence
import Homestead.Proofs.Graph.Run
import Homestead.Proofs.Record.Built
import Homestead.Proofs.Graph.Items
import Homestead.Proofs.Graph.Regions
import Homestead.Proofs.Graph.Success
import Homestead.Proofs.Record.Filling
import Homestead.Proofs.World.Sound
import Homestead.Proofs.World.Place
import Homestead.Proofs.World.Rows
import Homestead.Proofs.Record.Time
import Homestead.Proofs.Blueprint.Drawn
import Homestead.Proofs.World.Rejected
import Homestead.Proofs.World.Register
import Homestead.Proofs.World.Return
import Homestead.Proofs.World.Returning
import Homestead.Proofs.World.Restart
import Homestead.Proofs.Record.Decoded
import Homestead.Proofs.Graph.Advance
import Homestead.Proofs.World.Changes
import Homestead.Proofs.House.Edits
import Homestead.Proofs.World.Reached
import Homestead.Proofs.World.BadRecord
import Homestead.Proofs.Blueprint.Fitted
import Homestead.Proofs.House.Lists
import Homestead.Proofs.House.Tenancy
import Homestead.Proofs.Archive.Transact
import Homestead.Proofs.World.HousesReturn
import Homestead.Proofs.World.DoorLists
import Homestead.Proofs.Archive.Connection
import Homestead.Proofs.World.AllOrNothing
import Homestead.Proofs.Record.Reads
import Homestead.Proofs.Record.Grammar
import Homestead.Proofs.Record.Aligned
import Homestead.Proofs.House.Remembered
import Homestead.Proofs.Graph.Handling
import Homestead.Proofs.World.Furnished
import Homestead.Proofs.World.Containers
import Homestead.Proofs.Record.NormalForm
import Homestead.Proofs.World.Fates
import Homestead.Proofs.Blueprint.Housed
import Homestead.Proofs.World.Lived
import Homestead.Proofs.World.AtHome
import Homestead.Proofs.Graph.Twins
import Homestead.Proofs.World.Twins
import Homestead.Proofs.World.RowsApart
import Homestead.Proofs.Item.Decay
import Homestead.Proofs.World.DecayList
import Homestead.Proofs.World.Stuck
import Homestead.Proofs.Record.Charges
import Homestead.Proofs.World.Bound
import Homestead.Proofs.Record.Pruned
import Homestead.Proofs.Record.Raised
import Homestead.Proofs.World.Accounts
import Homestead.Proofs.World.Lots
import Homestead.Proofs.World.Matching
import Homestead.Proofs.World.Renewed
import Homestead.Proofs.World.Homeward
import Homestead.Proofs.World.Rewritten
import Homestead.Proofs.World.Homecoming
import Homestead.Proofs.Record.Cut
import Homestead.Proofs.Graph.Reachable
import Homestead.Proofs.Graph.Moving
import Homestead.Proofs.Graph.Walks
import Homestead.Proofs.Graph.Undisturbed
import Homestead.Proofs.Graph.Copies
import Homestead.Proofs.World.Pace
import Homestead.Proofs.House.Patterns
import Homestead.Proofs.House.Entries
import Homestead.Proofs.House.Decisions
import Homestead.Proofs.House.Remarks
import Homestead.Proofs.House.Recency
import Homestead.Proofs.House.Handover
import Homestead.Proofs.Attribute.Meaning
import Homestead.Proofs.Attribute.Order
import Homestead.Proofs.Blueprint.Made
import Homestead.Proofs.Blueprint.Counted
import Homestead.Proofs.Blueprint.Laid
import Homestead.Proofs.Blueprint.Followed
import Homestead.Proofs.Calendar.Dates
import Homestead.Proofs.Calendar.Stamps
import Homestead.Proofs.Item.Weight
import Homestead.Proofs.Graph.Growth
import Homestead.Proofs.Text.Boundary
import Homestead.Proofs.Stream.Cursor
import Homestead.Proofs.Stream.Values
import Homestead.Proofs.Record.Depots
import Homestead.Proofs.Record.Effort
import Homestead.Proofs.World.Ending
import Homestead.Proofs.World.Kinds
