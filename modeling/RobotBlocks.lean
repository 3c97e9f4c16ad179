import RobotBlocks.Block.DefinitionJson
import RobotBlocks.Main
import RobotBlocks.Store.Directory
import RobotBlocks.Studio
import RobotBlocks.Proofs.Numeric.Digits
import RobotBlocks.Proofs.Script.Lines
import RobotBlocks.Proofs.Results
import RobotBlocks.Proofs.Script.Accepted
import RobotBlocks.Proofs.Script.Printed
import RobotBlocks.Proofs.Script.RoundTrip
import RobotBlocks.Proofs.Program.Emission
import RobotBlocks.Proofs.Sandbox.Meaning
import RobotBlocks.Proofs.Sandbox.Unrolled
import RobotBlocks.Proofs.Sandbox.Exclusion
import RobotBlocks.Proofs.Numeric.DocumentText
import RobotBlocks.Proofs.Text.Bytes
import RobotBlocks.Proofs.Json.Numerals
import RobotBlocks.Proofs.Json.Texts
import RobotBlocks.Proofs.Json.Printed
import RobotBlocks.Proofs.Json.Reading
import RobotBlocks.Proofs.Block.Fields
import RobotBlocks.Proofs.Block.Diagram
import RobotBlocks.Proofs.Store.TextDocuments
import RobotBlocks.Proofs.Store.SlotKeys
import RobotBlocks.Proofs.Store.BinaryDocuments
import RobotBlocks.Proofs.Store.Listing
import RobotBlocks.Proofs.Store.Saving
import RobotBlocks.Proofs.Store.Calls
import RobotBlocks.Proofs.Robots.Reentry
import RobotBlocks.Proofs.Robots.Tally
import RobotBlocks.Proofs.Robots.Selections
import RobotBlocks.Proofs.Block.Registry
import RobotBlocks.Proofs.Program.Listing
import RobotBlocks.Proofs.Program.Provenance
import RobotBlocks.Proofs.Program.Sessions
import RobotBlocks.Proofs.Studio.Operations
import RobotBlocks.Proofs.Studio.Diagrams
import RobotBlocks.Proofs.Studio.Failures
import RobotBlocks.Proofs.Studio.InStep
import RobotBlocks.Proofs.Robots.SelectionOrder
import RobotBlocks.Proofs.Store.BinaryReading
import RobotBlocks.Proofs.Json.Accepted
import RobotBlocks.Proofs.Block.Accepted
import RobotBlocks.Proofs.Block.Levels
import RobotBlocks.Proofs.Store.TextReading
import RobotBlocks.Proofs.Json.Balance
import RobotBlocks.Proofs.Store.TornSlots
import RobotBlocks.Proofs.Numeric.Counts
import RobotBlocks.Proofs.Program.Validity
import RobotBlocks.Proofs.Program.FirstError
import RobotBlocks.Proofs.Program.Correspondence
import RobotBlocks.Proofs.Script.Lexical
import RobotBlocks.Proofs.Script.Bodies
import RobotBlocks.Proofs.Script.Assembled
import RobotBlocks.Proofs.Script.FirstProblem
import RobotBlocks.Proofs.Sandbox.RaisedLimits
import RobotBlocks.Proofs.Block.Tables
import RobotBlocks.Proofs.Store.FileNames
import RobotBlocks.Proofs.Store.FileTrees
import RobotBlocks.Proofs.Store.SlotPlaces
import RobotBlocks.Proofs.Store.SlotFiles
import RobotBlocks.Proofs.Text.LowerCase
import RobotBlocks.Proofs.Block.Search
import RobotBlocks.Proofs.Block.Histories
import RobotBlocks.Proofs.Block.Palette
import RobotBlocks.Proofs.Json.Compact
import RobotBlocks.Proofs.Json.Values
import RobotBlocks.Proofs.Catalog.Entries
import RobotBlocks.Proofs.Catalog.Feeds
import RobotBlocks.Proofs.Numeric.Naturals
import RobotBlocks.Proofs.Catalog.WireForms
import RobotBlocks.Proofs.Robots.Toggles
import RobotBlocks.Proofs.Block.Definitions
import RobotBlocks.Proofs.Store.DirectoryRefinement
import RobotBlocks.Proofs.Config
import RobotBlocks.Proofs.Script.Scanning
import RobotBlocks.Proofs.Script.Settings
