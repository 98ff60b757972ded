import M68kMachine.Library.RingBuffer
import M68kMachine.Library.Transition
import M68kMachine.Library.EventTrace
import M68kMachine.Library.Pipeline
import M68kMachine.Library.Buffer
import M68kMachine.Library.Loop
import M68kMachine.Core.Registers
import M68kMachine.Core.Rom
import M68kMachine.Properties.RomIdentify
import M68kMachine.Core.Block
import M68kMachine.Core.GuestMemory
import M68kMachine.Core.Autoconfig
import M68kMachine.Cards.Hostblk
import M68kMachine.Properties.HostblkQueue
import M68kMachine.Library.CoalescingQueue
import M68kMachine.Cards.Input
import M68kMachine.Properties.InputQueue
import M68kMachine.Cards.Mirage
import M68kMachine.Properties.MirageEngine
import M68kMachine.Properties.MirageTransfer
import M68kMachine.Properties.MirageRuns
import M68kMachine.Cards.VirtioNet
import M68kMachine.Properties.VirtioNetRuns
import M68kMachine.Properties.VirtioNetRings
import M68kMachine.Properties.VirtioNetTx
import M68kMachine.Properties.VirtioNetRx
import M68kMachine.Properties.VirtioNetTick
import M68kMachine.Core.Chipset
import M68kMachine.Core.Cia
import M68kMachine.Core.GuestRam
import M68kMachine.Core.Blitter
import M68kMachine.Cards.Cirrus
import M68kMachine.Cards.Graffity
import M68kMachine.Cards.Pktport
import M68kMachine.Cards.Rtgboard
import M68kMachine.Cards.Pcibridge
import M68kMachine.Cards.Fastram
import M68kMachine.Machine.Devices
import M68kMachine.Machine.Bus
import M68kMachine.Machine.Runs
import M68kMachine.Properties.DeviceWriteLog
import M68kMachine.Properties.DeviceWriteSpans
import M68kMachine.Machine.Moves
import M68kMachine.Properties.DeviceWriteRuns
import M68kMachine.Vp.Ir
import M68kMachine.Vp.Decoder
import M68kMachine.Vp.Interp
import M68kMachine.Properties.VpPasses
import M68kMachine.Properties.VpDecode
import M68kMachine.Properties.VpRuns
import M68kMachine.Hosted.PageTable
import M68kMachine.Hosted.Replay
import M68kMachine.Hosted.ReplayLog
import M68kMachine.Properties.LogRoundTrip
import M68kMachine.Hosted.ReplayRun
import M68kMachine.Properties.ReplayVerdict
import M68kMachine.Properties.TruncatedLog
import M68kMachine.Hosted.FixedRun
import M68kMachine.Properties.FixedTime
import M68kMachine.Library.HandleLog
import M68kMachine.Library.ListCursor
import M68kMachine.Hosted.Ffs
import M68kMachine.Hosted.Pktvol
import M68kMachine.Properties.PktvolHandles
import M68kMachine.Library.FileTree
import M68kMachine.Hosted.TreeFs
import M68kMachine.Properties.PktvolReads
import M68kMachine.Properties.PktvolRefusals
import M68kMachine.Properties.PktvolTree
import M68kMachine.Properties.PktvolWalk
import M68kMachine.Properties.PktvolFiles
import M68kMachine.Properties.PktvolPositions
import M68kMachine.Library.WrapRing
import M68kMachine.Drivers.Virtionet
import M68kMachine.Drivers.VirtionetRuns
import M68kMachine.Properties.VNetRings
import M68kMachine.Properties.VNetSlots
import M68kMachine.Properties.VNetRequests
import M68kMachine.Properties.VirtioNetLoop
import M68kMachine.Properties.PktportRequests
import M68kMachine.Properties.HostblkTransfer
import M68kMachine.Properties.TickBatching
import M68kMachine.Properties.CiaDeadline
import M68kMachine.Properties.KeyboardCodes
import M68kMachine.Properties.LevelIrqs
import M68kMachine.Properties.EventDeadline
import M68kMachine.Properties.BoundaryRequests
import M68kMachine.Library.BitStream
import M68kMachine.Library.Bresenham
import M68kMachine.Properties.BlitterWords
import M68kMachine.Properties.BlitterMirror
import M68kMachine.Properties.BlitterStream
import M68kMachine.Properties.BlitterLine
import M68kMachine.Properties.LazyTime
import M68kMachine.Properties.DeviceView
import M68kMachine.Properties.AccessWidths
import M68kMachine.Library.CopyOrder
import M68kMachine.Properties.BlitterOverlap
import M68kMachine.Library.PrefixParity
import M68kMachine.Properties.BlitterFill
import M68kMachine.Properties.AutoconfigChain
import M68kMachine.Properties.AutoconfigWindows
import M68kMachine.Properties.FastRamBacking
import M68kMachine.Properties.CustomBytes
import M68kMachine.Properties.SerialReceiver
import M68kMachine.Properties.DmaconHonest
import M68kMachine.Library.Codec
import M68kMachine.Library.Checked
import M68kMachine.Machine.CheckedTime
import M68kMachine.Cards.CheckedBlit
import M68kMachine.Properties.BlitFrame
import M68kMachine.Properties.TimeArithmetic
import M68kMachine.Properties.Lanes
import M68kMachine.Cards.ConfigSpace
import M68kMachine.Library.MaskedStore
import M68kMachine.Properties.ConfigSpaceWrites
import M68kMachine.Cards.PciFunctions
import M68kMachine.Properties.ApertureBytes
import M68kMachine.Properties.ApertureWidths
import M68kMachine.Properties.CardInterrupts
import M68kMachine.Properties.RtgboardModes
import M68kMachine.Properties.RtgboardRegisters
import M68kMachine.Drivers.Rtgboard
import M68kMachine.Properties.RtgboardDriver
import M68kMachine.Library.IndependentUpdates
import M68kMachine.Properties.PlainBlit
import M68kMachine.Properties.BlitContinues
import M68kMachine.Properties.BlitDirection
import M68kMachine.Properties.HostFedBlit
import M68kMachine.Core.Copper
import M68kMachine.Properties.CopperBands
import M68kMachine.Core.Planar
import M68kMachine.Properties.InterlaceWeave
import M68kMachine.Core.CheckedRender
import M68kMachine.Properties.RenderTotal
import M68kMachine.Properties.VpBlocks
import M68kMachine.Properties.VpBitfields
import M68kMachine.Properties.PrometheusConfig
import M68kMachine.Properties.VNetCapabilities
import M68kMachine.Properties.PrometheusWalk
import M68kMachine.Properties.PrometheusServers
import M68kMachine.Library.BumpAllocator
import M68kMachine.Drivers.PciPopulation
import M68kMachine.Properties.PrometheusBars
import M68kMachine.Properties.PrometheusWindows
import M68kMachine.Library.CoalescingLosses
import M68kMachine.Hosted.ScriptText
import M68kMachine.Hosted.InputScript
import M68kMachine.Properties.InputScripts
import M68kMachine.Hosted.SerialScript
import M68kMachine.Properties.SerialScripts
import M68kMachine.Drivers.VirtionetLife
import M68kMachine.Properties.VNetLifetime
import M68kMachine.Library.Stopping
import M68kMachine.Hosted.Introspect
import M68kMachine.Properties.IntrospectRoom
import M68kMachine.Library.ReloadTimer
import M68kMachine.Properties.CiaTimers
import M68kMachine.Properties.TodClock
import M68kMachine.Library.SpanWindow
import M68kMachine.Properties.WedgeDetection
import M68kMachine.Library.Reservation
import M68kMachine.Hosted.DirectMap
import M68kMachine.Properties.PageTypes
import M68kMachine.Properties.PageAccess
import M68kMachine.Properties.Wiring
import M68kMachine.Properties.DirectMap
import M68kMachine.Hosted.Recorder
import M68kMachine.Properties.MirroredRam
import M68kMachine.Properties.ReplayAccess
import M68kMachine.Properties.Recordings
import M68kMachine.Properties.RecordReplay
import M68kMachine.Hosted.SerialTcp
import M68kMachine.Properties.SerialBridge
import M68kMachine.Library.FlatImage
import M68kMachine.Boards.EfiStorage
import M68kMachine.Properties.EfiStorage
import M68kMachine.Properties.RdbScan
import M68kMachine.Library.Evolution
import M68kMachine.Library.Layers
import M68kMachine.Properties.CardsAlone
import M68kMachine.Properties.WriteProtection
import M68kMachine.Properties.ReadOnlyVolume
import M68kMachine.Properties.PlanarPicture
import M68kMachine.Cards.CirrusDisplay
import M68kMachine.Hosted.Screenshot
import M68kMachine.Properties.Screenshots
import M68kMachine.Boards.Present
import M68kMachine.Properties.Letterbox
import M68kMachine.Library.Lines
import M68kMachine.Hosted.Console
import M68kMachine.Properties.ConsoleLines
import M68kMachine.Properties.PartitionWindow
