import LabelBook.Log.Template
import LabelBook.Main
import LabelBook.Store.Shelf
import LabelBook.World
import LabelBook.Proofs.Record.Reading
import LabelBook.Proofs.Codec
import LabelBook.Proofs.Files.Changes
import LabelBook.Proofs.Running
import LabelBook.Proofs.Files.Paths
import LabelBook.Proofs.Files.Locating
import LabelBook.Proofs.Files.Writing
import LabelBook.Proofs.Files.Moving
import LabelBook.Proofs.Store.Saving
import LabelBook.Proofs.Json.Keys
import LabelBook.Proofs.Collection
import LabelBook.Proofs.Store.Opening
import LabelBook.Proofs.Store.Durability
import LabelBook.Proofs.Store.Dictionary
import LabelBook.Proofs.Rewriting
import LabelBook.Proofs.Store.Loading
import LabelBook.Proofs.Store.Settling
import LabelBook.Proofs.Log.Setup
import LabelBook.Proofs.Store.Failing
import LabelBook.Proofs.Store.Replacing
import LabelBook.Proofs.CommandLine.Running
import LabelBook.Proofs.Store.Interleaving
import LabelBook.Proofs.Log.Again
import LabelBook.Proofs.Log.Console
import LabelBook.Proofs.Store.Keeping
import LabelBook.Proofs.CommandLine.Answering
import LabelBook.Proofs.CommandLine.Restoring
import LabelBook.Proofs.Record.Spelling
import LabelBook.Proofs.Store.Spelling
import LabelBook.Proofs.LabelFile
import LabelBook.Proofs.Log.Attempts
import LabelBook.Proofs.Store.Sharing
import LabelBook.Proofs.CommandLine.Explicit
import LabelBook.Proofs.CommandLine.Configuring
import LabelBook.Proofs.Store.Reporting
import LabelBook.Proofs.Log.Event
import LabelBook.Proofs.Store.Distinct
import LabelBook.Proofs.Settings.Level
import LabelBook.Proofs.Settings.Rereading
