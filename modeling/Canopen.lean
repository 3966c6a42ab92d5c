import Canopen.Bench.Rig
import Canopen.Cli.Desk
import Canopen.Main
import Canopen.Server
import Canopen.Proofs.Bench.Together
import Canopen.Proofs.Client.FieldWrite
import Canopen.Proofs.Client.Locality
import Canopen.Proofs.Connection.Incoming
import Canopen.Proofs.Connection.Pairing
import Canopen.Proofs.Daemon.History
import Canopen.Proofs.Daemon.OverStream
import Canopen.Proofs.Daemon.Telling
import Canopen.Proofs.Network.Usage
import Canopen.Proofs.Value.Coding
import Canopen.Proofs.Entry.Lens
import Canopen.Proofs.Catalog.Indexes
import Canopen.Proofs.Number.Digits
import Canopen.Proofs.Number.Grammar
import Canopen.Proofs.BitField.Labels
import Canopen.Proofs.DataType.Name
import Canopen.Proofs.Definition.Carrying
import Canopen.Proofs.Yaml.Nodes
import Canopen.Proofs.Definition.Reloading
import Canopen.Proofs.Value.FixedLength
import Canopen.Proofs.Value.Readings
import Canopen.Proofs.Json.Quoted
import Canopen.Proofs.Json.Compact
import Canopen.Proofs.Value.Untagged
import Canopen.Proofs.Address.Grammar
import Canopen.Proofs.Address.Printed
import Canopen.Proofs.BitField.Words
import Canopen.Proofs.Entry.Building
import Canopen.Proofs.BitField.Laws
import Canopen.Proofs.BitField.WriteBack
import Canopen.Proofs.Client.Precheck
import Canopen.Proofs.Catalog.Union
import Canopen.Proofs.Frame.Ending
import Canopen.Proofs.Text.Blank
import Canopen.Proofs.Cli.NumberArgument
import Canopen.Proofs.Cli.ShownValue
import Canopen.Proofs.Cli.StringArgument
import Canopen.Proofs.Client.FileTransfer
import Canopen.Proofs.Cli.FieldReading
import Canopen.Proofs.Cli.EntryRows
import Canopen.Proofs.Cli.Commanding
import Canopen.Proofs.Cli.CsvReading
import Canopen.Proofs.Client.Attempts
import Canopen.Proofs.Client.Refusals
import Canopen.Proofs.Client.Upload
import Canopen.Proofs.Number.Formats
import Canopen.Proofs.Number.Widening
import Canopen.Proofs.Number.Rounding
import Canopen.Proofs.Value.Real32
