import Repiu.Runtime.PlannerMeasure
import Repiu.Runtime.Mode16
import Repiu.Engine.InlineCacheSiteIndex
import Repiu.Engine.IndexHistories
import Repiu.Engine.RetireFailures
import Repiu.Engine.AppendRebase
import Repiu.Engine.DirectReturnLookup
import Repiu.Engine.SegmentAccess
import Repiu.Hle.PitTimer
import Repiu.Hle.DosPaths
import Repiu.Hle.DosContents
import Repiu.Engine.Eeprom93c46
import Repiu.Sound.DecoderInputFifo
import Repiu.Sound.Ymz280bLoops
import Repiu.Engine.PicTimerInService
import Repiu.Engine.CdAudioWaveOut
import Repiu.Update.Sha256
import Repiu.Update.UpdateInstall
import Repiu.Engine.AcceptedPairs
import Repiu.Engine.VerdictOrder
import Repiu.Engine.PortIoDelayLoop
import Repiu.Glide.StagingShadow
import Repiu.Glide.DrawBatch
import Repiu.Engine.HostCommands
import Repiu.Glide.StateRestore
import Repiu.Engine.WatchRelease
import Repiu.Exe.FixupRecords
import Repiu.Exe.MemoryLayout
import Repiu.Exe.BoundModuleTiling
import Repiu.Engine.SegmentHistory
import Repiu.Runtime.ExcludedRanges
import Repiu.Runtime.NeutralisedBuild
import Repiu.Engine.GuardTransparency
import Repiu.Update.TarRoundTrip
import Repiu.Glide.LfbRegionExactness
import Repiu.Update.ReleaseInfo
import Repiu.Engine.TimerReturnPad
import Repiu.Sound.Dac3350aControl
import Repiu.Glide.PaletteRefresh
import Repiu.Engine.LinearSpanCache
import Repiu.Input.JammaInputBindings
import Repiu.Engine.SegmentLoads
