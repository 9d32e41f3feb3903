import DragonDevice.Lib.OrderedContainers
import DragonDevice.Lib.Memory
import DragonDevice.Lib.EraseLoop
import DragonDevice.Lib.BreakLoop
import DragonDevice.Lib.Transition
import DragonDevice.Lib.DeferredWrites
import DragonDevice.Lib.TaskPool
import DragonDevice.Lib.TransferLoop
import DragonDevice.Lib.DepthFirst
import DragonDevice.Hwc.SeparateRects
import DragonDevice.Hwc.CrossSection
import DragonDevice.Hwc.SweepRegions
import DragonDevice.Hwc.SeparateRectsCorrect
import DragonDevice.Hwc.Layer
import DragonDevice.Hwc.Planner
import DragonDevice.Hwc.PlanDraft
import DragonDevice.Hwc.PlanStages
import DragonDevice.Hwc.PlannerPlacement
import DragonDevice.Hwc.PlannerProtected
import DragonDevice.Hwc.SquashState
import DragonDevice.Hwc.DisplayComposition
import DragonDevice.Hwc.SeparateLayers
import DragonDevice.Hwc.PlanOrder
import DragonDevice.Hwc.DisplayedStack
import DragonDevice.Hwc.Composition
import DragonDevice.Hwc.PlaneExclusive
import DragonDevice.Hwc.CommitFrame
import DragonDevice.Hwc.CommitHonest
import DragonDevice.Hwc.ModeBlobs
import DragonDevice.Hwc.SquashSystem
import DragonDevice.Hwc.SquashMarks
import DragonDevice.Hwc.SquashFresh
import DragonDevice.Hwc.SquashFrame
import DragonDevice.Hwc.SquashBack
import DragonDevice.Hwc.DisplayPipes
import DragonDevice.Hwc.Hotplug
import DragonDevice.Hwc.NvImporter
import DragonDevice.Hwc.NvAccounted
import DragonDevice.Recovery.Flash
import DragonDevice.Recovery.NorFlash
import DragonDevice.Recovery.Vbnv
import DragonDevice.Recovery.UpdateFw
import DragonDevice.Recovery.VbnvLog
import DragonDevice.Recovery.UpdateFwReport
import DragonDevice.Recovery.UpdateFwConfined
import DragonDevice.Recovery.FlashBackends
import DragonDevice.Recovery.FlashContract
import DragonDevice.Recovery.EcContract
import DragonDevice.Recovery.BackendsContract
import DragonDevice.Dsp.Ini
import DragonDevice.Dsp.Pipeline
import DragonDevice.Dsp.Contraction
import DragonDevice.Dsp.PipelineOrder
import DragonDevice.Dsp.PipelineCycles
import DragonDevice.Dsp.Buffers
import DragonDevice.Dsp.BuffersSound
import DragonDevice.Dsp.Modules
import DragonDevice.Dsp.Lanes
import DragonDevice.Dsp.SharedRun
import DragonDevice.Dsp.CreatedOrder
import DragonDevice.Dsp.SharedTransparent
import DragonDevice.Sensors.PollEvents
import DragonDevice.Crash.Elf
import DragonDevice.Lib.SparseFile
import DragonDevice.Crash.CoredumpWriter
import DragonDevice.Crash.CoredumpLayout
import DragonDevice.Crash.CoredumpCopy
import DragonDevice.Crash.CoredumpContract
import DragonDevice.SoundTrigger.Device
import DragonDevice.SoundTrigger.Contract
import DragonDevice.Audio.Devices
import DragonDevice.Audio.Hal
import DragonDevice.Audio.Streams
import DragonDevice.Audio.Calls
import DragonDevice.Audio.Bookkeeping
import DragonDevice.Audio.StartKept
import DragonDevice.Audio.BookkeepingContract
import DragonDevice.Audio.StartAtomic
import DragonDevice.Audio.Locking
import DragonDevice.Audio.LockingContract
import DragonDevice.Audio.Capture
import DragonDevice.Audio.CaptureStream
import DragonDevice.Audio.InputRules
import DragonDevice.Audio.ChannelAgreement
import DragonDevice.Hwc.HolePunching
import DragonDevice.Hwc.SquashStability
import DragonDevice.Hwc.SquashArea
import DragonDevice.Hwc.SquashBounds
import DragonDevice.Hwc.GlComposite
import DragonDevice.Hwc.TextureMapping
import DragonDevice.Hwc.FenceOrder
import DragonDevice.Dsp.ChannelBuffers
import DragonDevice.Dsp.Apply
import DragonDevice.Dsp.DrcKernel
import DragonDevice.Dsp.DrcBlocks
import DragonDevice.Hwc.EventListener
import DragonDevice.Dsp.ParsePorts
import DragonDevice.Dsp.Expr
import DragonDevice.Dsp.ExprGrammar
import DragonDevice.Dsp.ExprSound
import DragonDevice.Dsp.Instantiate
import DragonDevice.Lib.LongestPath
import DragonDevice.Dsp.PipelineDelay
import DragonDevice.Dsp.PortTables
import DragonDevice.Dsp.ApplyBuffers
import DragonDevice.Dsp.IdentityPipeline
import DragonDevice.Audio.StreamsIndependent
import DragonDevice.Audio.CaptureBounds
import DragonDevice.Audio.InRead
import DragonDevice.Recovery.FmapDiscovery
import DragonDevice.Recovery.RootKey
import DragonDevice.Recovery.SyncSlots
import DragonDevice.Hwc.ModeIds
import DragonDevice.Hwc.SeparateRectsMerged
import DragonDevice.Crash.FileMappings
import DragonDevice.Sensors.Batch
import DragonDevice.Crash.WriteMaps
import DragonDevice.Crash.CrashReports
import DragonDevice.Dsp.ExprEval
import DragonDevice.Dsp.IniCreate
import DragonDevice.IniParser.RoundTrip
import DragonDevice.Dsp.Contexts
import DragonDevice.Dsp.DisableVariables
import DragonDevice.Hwc.CompositionsOwned
import DragonDevice.Hwc.Scanout
import DragonDevice.Hwc.ScanoutOrder
import DragonDevice.Hwc.VirtualCompositor
import DragonDevice.Hwc.Wakeups
import DragonDevice.Dsp.Biquad
import DragonDevice.Dsp.Eq2Filters
import DragonDevice.Dsp.Crossover2Channels
