import InkCompositor.Desktop.Clients
import InkCompositor.Display.Device
import InkCompositor.Config.Loading
import InkCompositor.Logging.Journal
import InkCompositor.Proofs.Wire.Codec
import InkCompositor.Proofs.Desktop.Consistency
import InkCompositor.Proofs.Client.Receiving
import InkCompositor.Proofs.Marker.Runs
import InkCompositor.Proofs.Marker.Resolution
import InkCompositor.Proofs.Marker.PanelWaits
import InkCompositor.Proofs.Marker.Interleaving
import InkCompositor.Proofs.Desktop.Canonical
import InkCompositor.Proofs.Desktop.Standing
import InkCompositor.Proofs.Desktop.Holdings
import InkCompositor.Proofs.Desktop.Isolation
import InkCompositor.Proofs.Desktop.Closing
import InkCompositor.Proofs.Desktop.Denial
import InkCompositor.Proofs.Desktop.Ordering
import InkCompositor.Proofs.Config.Acceptance
import InkCompositor.Proofs.Desktop.Mirroring
import InkCompositor.Proofs.Desktop.Legibility
import InkCompositor.Proofs.Raster.Drawing
import InkCompositor.Proofs.Desktop.Pausing
import InkCompositor.Proofs.Desktop.Flushing
import InkCompositor.Proofs.Config.Sizes
import InkCompositor.Proofs.Display.Scanning
import InkCompositor.Proofs.Desktop.Foregrounding
import InkCompositor.Proofs.Desktop.Deferral
import InkCompositor.Proofs.Geometry.Joins
import InkCompositor.Proofs.Client.Framing
import InkCompositor.Proofs.Desktop.Shades
import InkCompositor.Proofs.Desktop.Servicing
import InkCompositor.Proofs.Geometry.Passes
import InkCompositor.Proofs.Geometry.Points
import InkCompositor.Proofs.Client.Backlog
import InkCompositor.Proofs.Config.LogDirectory
