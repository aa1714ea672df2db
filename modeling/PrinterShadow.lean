import PrinterShadow.Config.Toml
import PrinterShadow.Json.Decode
import PrinterShadow.Json.Reader
import PrinterShadow.Proofs.FirmwareFrame
import PrinterShadow.Proofs.Interleaving
import PrinterShadow.Proofs.Resume
import PrinterShadow.Proofs.TravelBounds
import PrinterShadow.Tracker.Operation
import PrinterShadow.Proofs.UploadGate
import PrinterShadow.Proofs.ReportedBounds
import PrinterShadow.Proofs.Tracker.Filaments
import PrinterShadow.Proofs.ExtruderJog
import PrinterShadow.Proofs.ExtruderReport
import PrinterShadow.Proofs.Tracker.History
import PrinterShadow.Proofs.Homing
import PrinterShadow.Proofs.ToolSelection
import PrinterShadow.Proofs.Tracker.Changes
import PrinterShadow.Proofs.LayerCount
import PrinterShadow.Proofs.PrintingTime
import PrinterShadow.Proofs.ExtrudedLayers
import PrinterShadow.Proofs.Reset
import PrinterShadow.Proofs.StatusLine
import PrinterShadow.Proofs.ToolIsolation
import PrinterShadow.Proofs.Resend
import PrinterShadow.Proofs.HeaterOutput
import PrinterShadow.Proofs.Config.RoundTrip
import PrinterShadow.Proofs.WrittenLines
import PrinterShadow.Proofs.Accumulators
import PrinterShadow.Proofs.SnapshotIndex
import PrinterShadow.Proofs.KeptHeaters
import PrinterShadow.Proofs.Decimal.LongestNumeral
import PrinterShadow.Proofs.Decimal.Pattern
import PrinterShadow.Proofs.StatusFields
import PrinterShadow.Proofs.NumberedHeaters
import PrinterShadow.Proofs.Reread
import PrinterShadow.Proofs.Telemetry
import PrinterShadow.Proofs.Config.Requirements
import PrinterShadow.Proofs.Decimal.Written
import PrinterShadow.Proofs.Delivery
import PrinterShadow.Proofs.ResumeText
import PrinterShadow.Proofs.AxisJog
import PrinterShadow.Proofs.MotionAndDevices
import PrinterShadow.Proofs.HomeConfirmation
