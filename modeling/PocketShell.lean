import PocketShell.Journal
import PocketShell.Main
import PocketShell.Session.Call
import PocketShell.Proofs.Command.Act
import PocketShell.Proofs.Json.Written
import PocketShell.Proofs.Session.Change
import PocketShell.Proofs.Session.Directory
import PocketShell.Proofs.Session.Restart
import PocketShell.Proofs.Session.Sync
import PocketShell.Proofs.Storage.Keeping
import PocketShell.Proofs.Tree.Document
import PocketShell.Proofs.Tree.PathMap
import PocketShell.Proofs.Editor.FlatText
import PocketShell.Editor.Call
import PocketShell.Proofs.Editor.Act
import PocketShell.Proofs.Editor.Saved
import PocketShell.Proofs.Path.Normal
import PocketShell.Proofs.Tree.Writing
import PocketShell.Proofs.Session.Editing
import PocketShell.Proofs.Line.Print
import PocketShell.Proofs.Tree.ReadBack
import PocketShell.Proofs.Session.Beginning
import PocketShell.Proofs.Command.Indiscernible
import PocketShell.Proofs.Session.Store
import PocketShell.Proofs.Command.History
import PocketShell.Proofs.Session.Redirection
import PocketShell.Proofs.Session.Refusal
import PocketShell.Proofs.Session.Reset
import PocketShell.Proofs.Session.Signal
import PocketShell.Proofs.Tree.Addressable
import PocketShell.Proofs.Session.Addressing
import PocketShell.Proofs.Session.NormalDirectory
import PocketShell.Proofs.Editor.Grid
import PocketShell.Proofs.Editor.WellFormed
import PocketShell.Proofs.Editor.Protocol
import PocketShell.Proofs.Session.Interleaving
import PocketShell.Proofs.Json.Table
import PocketShell.Proofs.Storage.Reopening
import PocketShell.Proofs.Session.Agreement
import PocketShell.Proofs.Session.Isolation
import PocketShell.Proofs.Terminal.Lockstep
import PocketShell.Proofs.Terminal.Fresh
import PocketShell.Proofs.Session.Record
import PocketShell.Proofs.Tree.Fault
import PocketShell.Proofs.Session.Opening
import PocketShell.Proofs.Tree.Drawing
import PocketShell.Proofs.Session.Frame
import PocketShell.Proofs.Completion.Extension
import PocketShell.Proofs.Editor.Notation
import PocketShell.Proofs.Path.Home
import PocketShell.Proofs.Completion.Offer
import PocketShell.Proofs.Path.Composition
import PocketShell.Proofs.Path.Shown
import PocketShell.Proofs.Session.Homing
import PocketShell.Proofs.Command.Operands
import PocketShell.Proofs.Tree.Correspondence
import PocketShell.Proofs.Storage.Refusal
import PocketShell.Proofs.Session.FailedReset
import PocketShell.Proofs.Terminal.Loops
