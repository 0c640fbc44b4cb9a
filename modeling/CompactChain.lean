import CompactChain.Bytes
import CompactChain.Bytes.Hex
import CompactChain.Text.Blank
import CompactChain.Wire.Error
import CompactChain.Wire.Reader
import CompactChain.Wire.CompactSize
import CompactChain.Wire.ScriptNumber
import CompactChain.Wire.Cursor
import CompactChain.Digest.Sha256
import CompactChain.Digest.Blake2b
import CompactChain.Message.Basic
import CompactChain.Chain.Txid
import CompactChain.Chain.Transaction
import CompactChain.Chain.Block
import CompactChain.Message.Wire
import CompactChain.Message.Encode
import CompactChain.Message.Decode
import CompactChain.Settings
import CompactChain.Store.Record
import CompactChain.Store.OsError
import CompactChain.Store.Files
import CompactChain.Store.Error
import CompactChain.Store.HeldChain
import CompactChain.Store.Recovery
import CompactChain.Store.Operation
import CompactChain.Tree
import CompactChain.Cache
import CompactChain.Session
import CompactChain.Text.Quoted
import CompactChain.Settings.Value
import CompactChain.Settings.Wrapped
import CompactChain.Settings.Toml.Text
import CompactChain.Settings.Toml.Number
import CompactChain.Settings.Toml.Document
import CompactChain.Settings.Environment
import CompactChain.Settings.Load
import CompactChain.Proofs.Wire.Layout
import CompactChain.Proofs.Wire.Forms
import CompactChain.Proofs.Message.RoundTrip
import CompactChain.Proofs.Message.Faithful
import CompactChain.Proofs.Store.Script
import CompactChain.Proofs.Store.Consistency
import CompactChain.Proofs.Store.Preservation
import CompactChain.Proofs.Session.AnyDisk
import CompactChain.Proofs.Session.Attached
import CompactChain.Proofs.Session.Rejection
import CompactChain.Proofs.Session.Ingestion
import CompactChain.Proofs.Session.Launching
import CompactChain.Proofs.Session.Sharing
import CompactChain.Proofs.Tree.Location
import CompactChain.Proofs.Tree.Frame
import CompactChain.Proofs.Tree.Agreement
import CompactChain.Proofs.Tree.Barred
import CompactChain.Proofs.Tree.Trailing
import CompactChain.Proofs.Cache.Placement
import CompactChain.Proofs.Cache.Frame
import CompactChain.Proofs.Cache.Agreement
import CompactChain.Proofs.Store.Image
import CompactChain.Proofs.Store.Undisturbed
import CompactChain.Proofs.Store.Reading
import CompactChain.Proofs.Cache.Opening
import CompactChain.Proofs.Store.Stopped
import CompactChain.Proofs.Session.Durability
import CompactChain.Proofs.Session.Reopening
import CompactChain.Proofs.Session.Requests
import CompactChain.Proofs.Session.Calls
import CompactChain.Proofs.Chain.TransactionForm
import CompactChain.Proofs.Chain.TransactionReading
import CompactChain.Proofs.Wire.ScriptNumber
import CompactChain.Proofs.Chain.BlockForm
import CompactChain.Proofs.Chain.BlockReading
import CompactChain.Proofs.Chain.Prefixes
import CompactChain.Proofs.Chain.Compacting
import CompactChain.Proofs.Store.Attested
import CompactChain.Proofs.Store.Longest
import CompactChain.Launch
import CompactChain.Wire.Guarded
import CompactChain.Chain.Guarded
import CompactChain.Proofs.Store.Guarded
import CompactChain.Proofs.Cache.Launching
import CompactChain.Proofs.Store.Mirrored
import CompactChain.Proofs.Store.Loss
import CompactChain.Proofs.Store.Tampering
import CompactChain.Proofs.Store.Interrupted
import CompactChain.Proofs.Cache.Aside
import CompactChain.Proofs.Cache.Barred
import CompactChain.Proofs.Session.Found
import CompactChain.Proofs.Session.Loss
import CompactChain.Proofs.Session.Tampering
import CompactChain.Proofs.Session.Rollback
import CompactChain.Proofs.Chain.Projection
import CompactChain.Proofs.Message.Bounds
import CompactChain.Proofs.Chain.Size
import CompactChain.Proofs.Store.Fitting
import CompactChain.Proofs.Tree.Moving
import CompactChain.Proofs.Cache.SettingAside
import CompactChain.Proofs.Wire.Guarded
import CompactChain.Proofs.Chain.Guarded
import CompactChain.Proofs.Wire.ShortestPush
import CompactChain.Proofs.Wire.CompactSize
import CompactChain.Proofs.Bytes.Hex
import CompactChain.Proofs.Text.Blank
import CompactChain.Proofs.Chain.Ids
import CompactChain.Proofs.Session.Spelling
import CompactChain.Proofs.Wire.Reservations
import CompactChain.Proofs.Chain.LeastLengths
import CompactChain.Proofs.Chain.Announcements
import CompactChain.Proofs.Chain.Reservations
import CompactChain.Proofs.Settings.Merging
import CompactChain.Proofs.Settings.Toml.Keys
import CompactChain.Proofs.Settings.Keys
import CompactChain.Proofs.Settings.Leaves
import CompactChain.Proofs.Settings.Names
import CompactChain.Proofs.Settings.Layers
