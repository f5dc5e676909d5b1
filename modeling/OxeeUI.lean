import OxeeUI.Chat.EditDiffExact
import OxeeUI.Chat.PatchRoundTrip
import OxeeUI.Chat.ToolFoldLossless
import OxeeUI.Csv.CellEdits
import OxeeUI.Csv.IndexAgreement
import OxeeUI.Delivery.RendererCreditDrift
import OxeeUI.Dnr.CandidateIndex
import OxeeUI.Dnr.UrlFilterLanguage
import OxeeUI.Journal.DispatchTerminal
import OxeeUI.Journal.EpochPauses
import OxeeUI.Journal.ItemHistory
import OxeeUI.Journal.ItemKeyRoundTrip
import OxeeUI.Journal.LifecyclePartitionFits
import OxeeUI.Journal.QueuedMessageUndo
import OxeeUI.Journal.Requeue
import OxeeUI.Layout.EditorRekeys
import OxeeUI.Layout.LayoutRuns
import OxeeUI.Layout.PaneLayoutTranslation
import OxeeUI.Layout.ProjectedTabOrder
import OxeeUI.Layout.RecordPatchSession
import OxeeUI.Layout.RecordStreaming
import OxeeUI.Lineage.ResolvedLineage
import OxeeUI.Palette.TypoDistance
import OxeeUI.ProcessHost.WindowsCommandLine
import OxeeUI.Relay.AdmissionSafety
import OxeeUI.Relay.ConnectionReleases
import OxeeUI.Relay.ControlRenewalSent
import OxeeUI.Relay.ReserveBookings
import OxeeUI.Relay.ReserveEpochs
import OxeeUI.Relay.ReserveLedgerWriter
import OxeeUI.Relay.SeatMirrorRuns
import OxeeUI.Relay.SpliceSafety
import OxeeUI.Sidebar.ReaderCurrent
import OxeeUI.Ssh.RelaySentinel
import OxeeUI.Ssh.WriterSettlements
import OxeeUI.Terminal.EscapeTail
import OxeeUI.Wire.DeltaCoalescerRuns
import OxeeUI.Wire.FrameDelivery
import OxeeUI.Wire.NdjsonDelivery
