import DocOutline.Command.Basic
import DocOutline.Command.Journal
import DocOutline.Command.Line
import DocOutline.Document
import DocOutline.Files.Basic
import DocOutline.Files.Tree
import DocOutline.LineKind
import DocOutline.LineTable
import DocOutline.Log.Record
import DocOutline.Main
import DocOutline.Path
import DocOutline.Program
import DocOutline.Render.Json
import DocOutline.Render.Tree
import DocOutline.Section.Basic
import DocOutline.Section.Nesting
import DocOutline.Section.Prune
import DocOutline.Section.Query
import DocOutline.Section.Title
import DocOutline.Section.Walk
import DocOutline.Settings.Basic
import DocOutline.Settings.Decode
import DocOutline.Text.Basic
import DocOutline.Text.Line
import DocOutline.Text.Space
import DocOutline.Text.Word
import DocOutline.Token.Basic
import DocOutline.Token.Dump
import DocOutline.Token.Stream
import DocOutline.Toml.Datetime
import DocOutline.Toml.Document
import DocOutline.Toml.Draft
import DocOutline.Toml.Number
import DocOutline.Toml.Quoted
import DocOutline.Toml.Statement
import DocOutline.Toml.Value
import DocOutline.Proofs.Nesting
import DocOutline.Proofs.Bytes
import DocOutline.Proofs.Tiling
import DocOutline.Proofs.LineRoles
import DocOutline.Proofs.Extraction
import DocOutline.Proofs.Manuscript
import DocOutline.Proofs.Flattening
import DocOutline.Proofs.Queries
import DocOutline.Proofs.Restriction
import DocOutline.Proofs.LineEndings
import DocOutline.Proofs.Positions
import DocOutline.Proofs.Bounds
import DocOutline.Proofs.LineStarts
import DocOutline.Proofs.WrittenTree
import DocOutline.Proofs.Searching
import DocOutline.Proofs.LineGrammar
import DocOutline.Proofs.Readers
import DocOutline.Proofs.WrittenTokens
import DocOutline.Proofs.KnownSettings
import DocOutline.Proofs.WrittenJson
import DocOutline.Proofs.Assembly
import DocOutline.Proofs.Scanning
import DocOutline.Proofs.Runs
