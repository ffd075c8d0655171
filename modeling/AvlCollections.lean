import AvlCollections.Tree.Basic
import AvlCollections.Tree.Balance
import AvlCollections.Tree.Insert
import AvlCollections.Tree.Erase
import AvlCollections.Tree.Walk
import AvlCollections.SlotPool
import AvlCollections.Stamp
import AvlCollections.Error
import AvlCollections.Cursor
import AvlCollections.Set.Basic
import AvlCollections.Set.Navigate
import AvlCollections.Set.Iter
import AvlCollections.Set.Print
import AvlCollections.MultiMap.Entry
import AvlCollections.MultiMap.Basic
import AvlCollections.Decimal.Binary64
import AvlCollections.Decimal.Shortest
import AvlCollections.Decimal.Text
import AvlCollections.Json.Scan
import AvlCollections.Json.Value
import AvlCollections.Json.Parse
import AvlCollections.Text.Ranges
import AvlCollections.Text.Cased
import AvlCollections.Text.Lowercase
import AvlCollections.Text.Quoted
import AvlCollections.Json.Collection
import AvlCollections.Order
import AvlCollections.Script.Element
import AvlCollections.Script.Step
import AvlCollections.Script.SetScript
import AvlCollections.Script.MapScript
import AvlCollections.Script.Run
import AvlCollections.Proofs.Ascending
import AvlCollections.Proofs.SlotPool
import AvlCollections.Proofs.Tree.Nodes
import AvlCollections.Proofs.Tree.Height
import AvlCollections.Proofs.Tree.Insert
import AvlCollections.Proofs.Tree.Erase
import AvlCollections.Proofs.Tree.Search
import AvlCollections.Proofs.Set.Valid
import AvlCollections.Proofs.Tree.Walk
import AvlCollections.Proofs.Set.Iter
import AvlCollections.Proofs.Set.Locate
import AvlCollections.Proofs.Set.SortedList
import AvlCollections.Proofs.BTree
import AvlCollections.Proofs.Tree.Shape
import AvlCollections.Proofs.Set.Shape
import AvlCollections.Proofs.Tree.Links
import AvlCollections.Proofs.Stamp
import AvlCollections.Proofs.Set.Stamps
import AvlCollections.Proofs.MultiMap.Stamps
import AvlCollections.Proofs.Session.World
import AvlCollections.Proofs.Session.Cursors
import AvlCollections.Proofs.MultiMap.Valid
import AvlCollections.Proofs.MultiMap.SortedPairs
import AvlCollections.Proofs.Json.Codec
import AvlCollections.Proofs.Json.Reading
import AvlCollections.Proofs.Json.RoundTrip
import AvlCollections.Proofs.Tree.Fibonacci
import AvlCollections.Proofs.Heights
import AvlCollections.Proofs.Safety
import AvlCollections.Proofs.Set.Stepping
import AvlCollections.Proofs.Refusals
import AvlCollections.Proofs.Set.Print
import AvlCollections.Proofs.Tree.Rotation
import AvlCollections.Proofs.Set.Neighbours
import AvlCollections.Proofs.Set.WalkBounds
import AvlCollections.Proofs.Set.Storage
