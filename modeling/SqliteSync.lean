import SqliteSync.Library.Keyed
import SqliteSync.Codec.RoundTrip
import SqliteSync.Payload.Apply
import SqliteSync.Payload.Outcome
import SqliteSync.Payload.Bounds
import SqliteSync.Payload.RoundTrip
import SqliteSync.Clock.Advance
import SqliteSync.Store.Merge
import SqliteSync.Store.Local
import SqliteSync.Store.RowState
import SqliteSync.Store.Effect
import SqliteSync.Store.MergeRow
import SqliteSync.Store.LocalRow
import SqliteSync.Causal.Run
import SqliteSync.Store.Declared
import SqliteSync.Store.Plain
import SqliteSync.Causal.DeclaredRun
import SqliteSync.Causal.Parity
import SqliteSync.Causal.Converge
import SqliteSync.Store.Feed
import SqliteSync.Causal.Delivery
import SqliteSync.Store.MergeFaults
import SqliteSync.Causal.Failure
import SqliteSync.Causal.Length
import SqliteSync.Library.Like
import SqliteSync.Store.Catalog
import SqliteSync.Store.CatalogFeed
import SqliteSync.Store.CatalogVersion
import SqliteSync.Causal.GrowOnly
import SqliteSync.Store.Constraint
import SqliteSync.Causal.OwnRow
import SqliteSync.Config.Session
import SqliteSync.Config.SiteIdentity
import SqliteSync.Config.Registry
import SqliteSync.Library.Traverse
import SqliteSync.Library.Slots
import SqliteSync.Library.Transcript
import SqliteSync.Config.TableSlots
import SqliteSync.Config.TableSet
import SqliteSync.Causal.Recorded
import SqliteSync.Causal.Restamped
import SqliteSync.Causal.RowId
import SqliteSync.Causal.Bootstrap
import SqliteSync.Causal.Propagate
import SqliteSync.Schema.Fnv1a
import SqliteSync.Schema.NormalForm
import SqliteSync.Schema.Normalized
import SqliteSync.Library.Clause
import SqliteSync.Vtab.BestIndex
import SqliteSync.Vtab.Faithful
import SqliteSync.Vtab.Estimate
import SqliteSync.Schema.Hash
import SqliteSync.Payload.Rows
import SqliteSync.Payload.Approved
import SqliteSync.Payload.Cursor
import SqliteSync.Alter.PrimaryKey
import SqliteSync.Config.Install
import SqliteSync.Library.Quote
import SqliteSync.Alter.TableInfo
import SqliteSync.Alter.Refill
import SqliteSync.Alter.Effect
import SqliteSync.Alter.Idempotent
import SqliteSync.Alter.Coverage
import SqliteSync.Library.Footprint
import SqliteSync.Alter.Commit
import SqliteSync.Payload.Growth
import SqliteSync.Payload.Dropped
import SqliteSync.Library.Delimited
import SqliteSync.Network.QueryParam
import SqliteSync.Library.CString
import SqliteSync.Library.Refine
import SqliteSync.Config.Settings
import SqliteSync.Config.TableSettings
import SqliteSync.Config.Missing
import SqliteSync.Network.StoredCursor
import SqliteSync.Store.Switches
import SqliteSync.Network.Send
import SqliteSync.Network.Sender
import SqliteSync.Network.Unsent
import SqliteSync.Network.Logout
import SqliteSync.Network.Traceless
import SqliteSync.Network.Kept
import SqliteSync.Network.SentCursor
import SqliteSync.Network.Skipped
import SqliteSync.Library.Epoch
import SqliteSync.Library.Gossip
import SqliteSync.Causal.Summary
import SqliteSync.Causal.Known
import SqliteSync.Causal.Agreement
import SqliteSync.Causal.Rounds
import SqliteSync.Store.Ran
import SqliteSync.Causal.Peers
import SqliteSync.Vtab.Update
import SqliteSync.Payload.Deliver
import SqliteSync.Causal.Transfer
import SqliteSync.Library.Pulling
import SqliteSync.Causal.Told
import SqliteSync.Causal.Stamped
import SqliteSync.Causal.Incremental
import SqliteSync.Causal.Exchange
import SqliteSync.Network.Transport
import SqliteSync.Schema.Log
import SqliteSync.Network.Sync
import SqliteSync.Causal.Synced
import SqliteSync.Library.Lexicographic
import SqliteSync.Codec.Uuid
import SqliteSync.Library.Handles
import SqliteSync.Vtab.Cursor
